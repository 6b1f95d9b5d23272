import SdnFirewall.System.Lookup

/-!
# Learned routes

Every learned port is one a frame has come in by, so a learned entry leads to such a port. It leads
from one port to another only if an ARP frame was forwarded between the two. Such an entry names
no ethertype: what frames it takes besides those of ARP is what this file is about.
-/

namespace SdnFirewall

open Common OpenFlow Python

/-! ## The learning table -/

/-- Two switches have their learned ports under different keys. -/
theorem FirewallApp.dpidKey_injective : Function.Injective FirewallApp.dpidKey := by
  have hread : ∀ d, Nat.ofDigitChars 10 (List.leftpad 16 '0' (Nat.toDigits 10 d)) 0 = d := by
    intro d
    rw [List.leftpad, Nat.ofDigitChars_append, Nat.ofDigitChars_replicate_zero, Nat.mul_zero,
      Nat.ofDigitChars_ten_toDigits]
  intro d d' h
  rw [← hread d, String.ofList_injective h, hread d']

/-- Every learned port is an ingress port. -/
def FirewallApp.Routed (c : FirewallApp) : Prop :=
  ∀ dpid ports, c.macToPort.get? dpid = some ports →
    ∀ mac port, ports.get? mac = some port → ∃ p : IngressPort, p.no = port

/-- A learned station is found at its port, and the others where they were. -/
theorem FirewallApp.portsOf_learnMac (c : FirewallApp) (d : ℕ) (mac : String) (port : ℕ) :
    (c.learnMac d mac port).portsOf d = (c.portsOf d).set mac port := by
  rw [FirewallApp.portsOf, FirewallApp.learnMac_macToPort, Dict.get?_set, if_pos rfl,
    Option.getD_some]

/-- At first nothing is learned. -/
theorem routed_init (dpi : DPIEngine) : (FirewallApp.init dpi).Routed := by
  intro dpid ports hports
  exact absurd hports (by simp [FirewallApp.init])

namespace FirewallApp.Routed

variable {c : FirewallApp}

/-- What is looked up is an ingress port. -/
theorem portsOf (h : c.Routed) (d : ℕ) {mac : String} {port : ℕ}
    (hport : (c.portsOf d).get? mac = some port) : ∃ p : IngressPort, p.no = port := by
  unfold FirewallApp.portsOf at hport
  cases hports : c.macToPort.get? (FirewallApp.dpidKey d) with
  | none =>
      rw [hports] at hport
      exact absurd hport (by simp)
  | some ports =>
      rw [hports] at hport
      exact h _ ports hports mac port hport

/-- Learning the port a frame came in by keeps it so. -/
theorem learnMac (h : c.Routed) (d : ℕ) (mac : String) (inPort : IngressPort) :
    (c.learnMac d mac inPort.no).Routed := by
  intro dpid ports hports mac' port hport
  rw [FirewallApp.learnMac_macToPort, Dict.get?_set] at hports
  split at hports
  · obtain rfl := Option.some.inj hports
    rw [Dict.get?_set] at hport
    split at hport
    · exact ⟨inPort, Option.some.inj hport⟩
    · exact h.portsOf d hport
  · exact h dpid ports hports mac' port hport

/-- The output port is the flood port exactly when the destination has not been learned. -/
theorem outPortOf_ne_flood (h : c.Routed) (d : ℕ) (mac : String) :
    c.outPortOf d mac ≠ OFPP_FLOOD ↔ ((c.portsOf d).get? mac).isSome := by
  rw [FirewallApp.outPortOf]
  cases hport : (c.portsOf d).get? mac with
  | none => simp
  | some port =>
      obtain ⟨p, rfl⟩ := h.portsOf d hport
      simpa using p.ne_flood

/-- The port of a learned destination is an ingress port. -/
theorem exists_outPortOf (h : c.Routed) {d : ℕ} {mac : String}
    (hport : c.outPortOf d mac ≠ OFPP_FLOOD) : ∃ p : IngressPort, p.no = c.outPortOf d mac := by
  obtain ⟨port, hget⟩ := Option.isSome_iff_exists.mp ((h.outPortOf_ne_flood d mac).mp hport)
  rw [FirewallApp.outPortOf, hget]
  exact h.portsOf d hget

end FirewallApp.Routed

/-! ### What an event teaches -/

/-- The event shows a station behind a port of a switch: it is a packet-in that gets a verdict. -/
def FirewallApp.Locates (c : FirewallApp) (ev : Event) (d : ℕ) (mac : String)
    (inPort : IngressPort) : Prop :=
  ∃ now msg ethPkt, ev = .packetIn d now msg ∧ (c.verdictOf? ev).isSome ∧
    msg.ethernet? = some ethPkt ∧ ethPkt.src = mac ∧ msg.inPort = inPort

/-- An event shows one station at most. -/
theorem FirewallApp.Locates.unique {c : FirewallApp} {ev : Event} {d d' : ℕ} {mac mac' : String}
    {inPort inPort' : IngressPort} (h : c.Locates ev d mac inPort)
    (h' : c.Locates ev d' mac' inPort') : d = d' ∧ mac = mac' ∧ inPort = inPort' := by
  obtain ⟨now, msg, ethPkt, rfl, -, heth, rfl, rfl⟩ := h
  obtain ⟨now', msg', ethPkt', hev, -, heth', rfl, rfl⟩ := h'
  obtain ⟨rfl, -, rfl⟩ := Event.packetIn.inj hev
  obtain rfl : ethPkt = ethPkt' := Option.some.inj (heth.symm.trans heth')
  exact ⟨rfl, rfl, rfl⟩

/-- After a packet-in the controller has learned its sender, and nothing else. -/
theorem macToPort_afterLearning (c : FirewallApp) (datapath : Datapath) (now : ℚ) (msg : PacketIn)
    (ethPkt : Ethernet) :
    (c.afterLearning datapath now msg ethPkt).macToPort =
      (c.learnMac datapath.id ethPkt.src msg.inPort.no).macToPort := by
  have hrules := congrArg FirewallApp.macToPort (rules_filterOf c datapath now msg ethPkt)
  have heq : (c.filterOf datapath now msg ethPkt).state.macToPort = c.macToPort := hrules
  simp only [FirewallApp.afterLearning, FirewallApp.learnMac_macToPort, FirewallApp.portsOf, heq]

/-- The learning table is written by the packet-ins that get a verdict, and by nothing else. -/
theorem macToPort_handle {compile : ReCompile} {c : FirewallApp} (hc : c.Keyed) (ev : Event) :
    (∃ d mac inPort, c.Locates ev d mac inPort ∧
        (c.handle compile ev).1.macToPort = (c.learnMac d mac inPort.no).macToPort) ∨
      (∀ d mac inPort, ¬ c.Locates ev d mac inPort) ∧
        (c.handle compile ev).1.macToPort = c.macToPort := by
  obtain ⟨c', ms, hact, hcore, -⟩ := acted_handle compile hc ev
  have hmac : (c.handle compile ev).1.macToPort = c'.macToPort :=
    congrArg (fun c => c.macToPort) hcore
  rw [hmac]
  -- a packet-in with a verdict teaches where its sender is, even a rejected one
  cases hact with
  | handshake | expired => exact Or.inr ⟨by simp [FirewallApp.Locates], rfl⟩
  | unheard d now msg hd =>
      exact Or.inr ⟨by simp [FirewallApp.Locates, FirewallApp.verdictOf?, hd], rfl⟩
  | ignored d now msg tracker hd hv =>
      exact Or.inr ⟨by simp [FirewallApp.Locates, FirewallApp.verdictOf?, hv], rfl⟩
  | rejected d now msg result ethPkt hd hv _ heth =>
      refine Or.inl ⟨d, ethPkt.src, msg.inPort, ⟨now, msg, ethPkt, rfl, ?_, heth, rfl, rfl⟩,
        macToPort_afterLearning c ⟨d⟩ now msg ethPkt⟩
      rw [verdictOf?_eq_some.mpr ⟨hd, hv⟩, Option.isSome_some]
  | allowed d now msg ethPkt hd hv heth =>
      refine Or.inl ⟨d, ethPkt.src, msg.inPort, ⟨now, msg, ethPkt, rfl, ?_, heth, rfl, rfl⟩, ?_⟩
      · rw [verdictOf?_eq_some.mpr ⟨hd, hv⟩, Option.isSome_some]
      · have hrecord : ∀ (s : FirewallApp) target,
            (s.recordFor target).macToPort = s.macToPort := by
          intro s target
          cases target <;> rfl
        rw [hrecord]
        exact macToPort_afterLearning c ⟨d⟩ now msg ethPkt
  | served req val c' msgs hval hserved =>
      refine Or.inr ⟨by simp [FirewallApp.Locates], ?_⟩
      cases hserved <;> rfl

/-- Every event keeps the learned ports ingress ports. -/
theorem routed_handle {compile : ReCompile} {c : FirewallApp} (hc : c.Keyed) (h : c.Routed)
    (ev : Event) : (c.handle compile ev).1.Routed := by
  rcases macToPort_handle hc ev with ⟨d, mac, inPort, -, hmac⟩ | ⟨-, hmac⟩
  · rw [FirewallApp.Routed, hmac]
    exact h.learnMac d mac inPort
  · rw [FirewallApp.Routed, hmac]
    exact h

/-- On the switch it is seen on, the station is learned; the other stations stay where they are. -/
theorem portsOf_of_locates {compile : ReCompile} {c : FirewallApp} (hc : c.Keyed) {ev : Event}
    {d : ℕ} {mac : String} {inPort : IngressPort} (h : c.Locates ev d mac inPort) :
    (c.handle compile ev).1.portsOf d = (c.portsOf d).set mac inPort.no := by
  rcases macToPort_handle hc ev with ⟨d', mac', inPort', h', hmac⟩ | ⟨hnot, -⟩
  · obtain ⟨rfl, rfl, rfl⟩ := h.unique h'
    rw [FirewallApp.portsOf, hmac, ← FirewallApp.portsOf_learnMac, FirewallApp.portsOf]
  · exact absurd h (hnot d mac inPort)

/-- On a switch on which no station is seen, nothing is learned. -/
theorem portsOf_of_not_locates {compile : ReCompile} {c : FirewallApp} (hc : c.Keyed) {ev : Event}
    {d : ℕ} (h : ∀ mac inPort, ¬ c.Locates ev d mac inPort) :
    (c.handle compile ev).1.portsOf d = c.portsOf d := by
  rcases macToPort_handle hc ev with ⟨d', mac, inPort, h', hmac⟩ | ⟨-, hmac⟩
  · have hne : FirewallApp.dpidKey d ≠ FirewallApp.dpidKey d' := by
      intro hkey
      obtain rfl := FirewallApp.dpidKey_injective hkey
      exact h mac inPort h'
    rw [FirewallApp.portsOf, hmac, FirewallApp.learnMac_macToPort, Dict.get?_set_ne _ _ hne,
      FirewallApp.portsOf]
  · rw [FirewallApp.portsOf, hmac, FirewallApp.portsOf]

/-! ## Bridging -/

/-- The sender of an ARP frame contradicts what its address is bound to. -/
def FirewallApp.Forged (c : FirewallApp) (arpPkt : Arp) : Prop :=
  ∃ mac, c.arpTable.get? arpPkt.srcIp = some mac ∧ mac ≠ arpPkt.srcMac

/-- An ARP frame is allowed exactly when its header was parsed and does not contradict the binding
of its sender. -/
theorem verdict?_arp {c : FirewallApp} {datapath : Datapath} {now : ℚ} {msg : PacketIn}
    {ethPkt : Ethernet} (heth : msg.ethernet? = some ethPkt)
    (htype : ethPkt.ethertype = ETH_TYPE_ARP) :
    c.verdict? datapath now msg = some .allowed ↔
      ∃ arpPkt, (Packet.parse msg.data).arp = some arpPkt ∧ ¬ c.Forged arpPkt := by
  rw [verdict?_iff heth]
  rcases (filtered_filterOf c datapath now msg ethPkt).of_arp htype with
    ⟨hnone, hr⟩ | ⟨arpPkt, harp, hr⟩
  · rw [hr, hnone]
    simp
  · rw [hr, harp]
    simp only [Option.some.injEq, exists_eq_left']
    unfold FirewallApp.Forged
    cases hget : c.arpTable.get? arpPkt.srcIp with
    | none => simp
    | some mac => by_cases hmac : mac = arpPkt.srcMac <;> simp [hmac]

/-- A learned entry is installed for ARP frames only. -/
theorem FirewallApp.LearnsRoute.ethertype {c : FirewallApp} {d : ℕ} {now : ℚ} {msg : PacketIn}
    {ethPkt : Ethernet} (h : c.LearnsRoute d now msg ethPkt) :
    ethPkt.ethertype = ETH_TYPE_ARP := by
  obtain ⟨-, hv, heth, hip, -⟩ := h
  exact ((filtered_filterOf c ⟨d⟩ now msg ethPkt).ethertype_of_verdict
    ((verdict?_iff heth).mp hv)).resolve_left hip

/-- The event is an ARP frame that passes the spoof check, from one port of a switch to a station
that was learned on another. -/
def FirewallApp.Bridges (c : FirewallApp) (ev : Event) : Prop :=
  ∃ d now msg ethPkt arpPkt port, ev = .packetIn d now msg ∧ d ∈ c.datapaths.keys ∧
    msg.ethernet? = some ethPkt ∧ ethPkt.ethertype = ETH_TYPE_ARP ∧
    (Packet.parse msg.data).arp = some arpPkt ∧ ¬ c.Forged arpPkt ∧
    ethPkt.dst ≠ ethPkt.src ∧ (c.portsOf d).get? ethPkt.dst = some port ∧ port ≠ msg.inPort.no

/-- A learned entry between two ports is installed by a bridging event, and only by one. -/
theorem bridges_iff {c : FirewallApp} (h : c.Routed) {d : ℕ} {now : ℚ} {msg : PacketIn} :
    c.Bridges (.packetIn d now msg) ↔ ∃ ethPkt, c.LearnsRoute d now msg ethPkt ∧
      c.routeOf d msg ethPkt ≠ msg.inPort.no := by
  constructor
  · rintro ⟨d', now', msg', ethPkt, arpPkt, port, hev, hd, heth, htype, harp, hforged, hdst, hport,
      hne⟩
    cases hev
    have hroute : c.routeOf d msg ethPkt = port := by
      rw [FirewallApp.routeOf, FirewallApp.outPortOf, FirewallApp.portsOf_learnMac,
        Dict.get?_set, if_neg hdst, hport, Option.getD_some]
    obtain ⟨p, rfl⟩ := h.portsOf d hport
    refine ⟨ethPkt, ⟨hd, (verdict?_arp heth htype).mpr ⟨arpPkt, harp, hforged⟩, heth, ?_, ?_⟩, ?_⟩
    · rw [htype]
      decide
    · rw [hroute]
      exact p.ne_flood
    · rw [hroute]
      exact hne
  · rintro ⟨ethPkt, hlearn, hne⟩
    have htype := hlearn.ethertype
    obtain ⟨hd, hv, heth, -, hflood⟩ := hlearn
    obtain ⟨arpPkt, harp, hforged⟩ := (verdict?_arp heth htype).mp hv
    -- the sender itself has just been learned on the port the frame came in by
    have hroute : c.routeOf d msg ethPkt = if ethPkt.dst = ethPkt.src then msg.inPort.no
        else c.outPortOf d ethPkt.dst := by
      rw [FirewallApp.routeOf, FirewallApp.outPortOf, FirewallApp.portsOf_learnMac, Dict.get?_set]
      split <;> rfl
    by_cases hdst : ethPkt.dst = ethPkt.src
    · rw [hroute, if_pos hdst] at hne
      exact absurd rfl hne
    · rw [hroute, if_neg hdst] at hne hflood
      obtain ⟨port, hport⟩ := Option.isSome_iff_exists.mp ((h.outPortOf_ne_flood d _).mp hflood)
      rw [FirewallApp.outPortOf, hport, Option.getD_some] at hne
      exact ⟨d, now, msg, ethPkt, arpPkt, port, rfl, hd, heth, htype, harp, hforged, hdst, hport,
        hne⟩

namespace World

/-! ## Learned entries in the tables -/

/-- What holds of the learned ports and entries in every reachable state. -/
structure LearnSound (w : World) : Prop where
  sound : w.Sound
  routed : w.ctl.Routed
  ports : ∀ d inPort ethPkt outPort, learnedEntry inPort ethPkt outPort ∈ w.tables d →
    ∃ p : IngressPort, p.no = outPort

/-- An entry of priority 1 that is found after an event was there before or has just been
learned. -/
theorem mem_step_of_priority_one {compile : ReCompile} {w : World} (hw : w.Sound) {ev : Event}
    {d : ℕ} {e : FlowEntry} (he : e ∈ (w.step compile ev).tables d) (hprio : e.priority = 1) :
    e ∈ w.tables d ∨ ∃ now msg ethPkt, ev = .packetIn d now msg ∧
      w.ctl.LearnsRoute d now msg ethPkt ∧
      e = learnedEntry msg.inPort.no ethPkt (w.ctl.routeOf d msg ethPkt) := by
  rcases mem_step hw.keyed he with he | he
  · exact Or.inl he
  · cases he with
    | learned now msg ethPkt h => exact Or.inr ⟨now, msg, ethPkt, rfl, h, rfl⟩
    | miss | catchAll | refill | rateDrop | arpDrop | forward | reverse => simp at hprio

/-- The ports of a learned entry that is found after an event and was not there before. -/
theorem learned_step {compile : ReCompile} {w : World} (hw : w.Sound) {ev : Event} {d : ℕ}
    {inPort outPort : ℕ} {ethPkt : Ethernet}
    (he : learnedEntry inPort ethPkt outPort ∈ (w.step compile ev).tables d) :
    learnedEntry inPort ethPkt outPort ∈ w.tables d ∨
      ∃ now msg ethPkt', ev = .packetIn d now msg ∧ w.ctl.LearnsRoute d now msg ethPkt' ∧
        inPort = msg.inPort.no ∧ outPort = w.ctl.routeOf d msg ethPkt' := by
  rcases mem_step_of_priority_one hw he rfl with he | ⟨now, msg, ethPkt', rfl, h, hlearned⟩
  · exact Or.inl he
  · have hports := congrArg (fun e => (e.ofMatch.inPort, e.actions)) hlearned
    simp only [learnedEntry, learnedMatch, Prod.mk.injEq, Option.some.injEq, List.cons.injEq,
      OFPActionOutput.mk.injEq, and_true] at hports
    exact Or.inr ⟨now, msg, ethPkt', rfl, h, hports.1, hports.2⟩

/-- At first there are no entries. -/
theorem learnSound_init (dpi : DPIEngine) : (init dpi).LearnSound where
  sound := sound_init dpi
  routed := routed_init dpi
  ports := fun _ _ _ _ he => absurd he List.not_mem_nil

/-- Every event keeps the learned ports and entries as they should be. -/
theorem learnSound_step {compile : ReCompile} {w : World} (hw : w.LearnSound) (ev : Event) :
    (w.step compile ev).LearnSound := by
  refine ⟨sound_step hw.sound ev, routed_handle hw.sound.keyed hw.routed ev, ?_⟩
  intro d inPort ethPkt outPort he
  rcases learned_step hw.sound he with he | ⟨now, msg, ethPkt', -, ⟨-, -, -, -, hflood⟩, -, rfl⟩
  · exact hw.ports d inPort ethPkt outPort he
  · exact (hw.routed.learnMac d ethPkt'.src msg.inPort).exists_outPortOf hflood

/-- Every learned entry leads back to the port it is for. -/
def Unbridged (w : World) : Prop :=
  ∀ d inPort ethPkt outPort, learnedEntry inPort ethPkt outPort ∈ w.tables d → outPort = inPort

/-- At first there is no learned entry. -/
theorem unbridged_init (dpi : DPIEngine) : (init dpi).Unbridged :=
  fun _ _ _ _ he => absurd he List.not_mem_nil

/-- Only a bridging event installs an entry between two ports. -/
theorem unbridged_step {compile : ReCompile} {w : World} (hw : w.LearnSound) (h : w.Unbridged)
    {ev : Event} (hev : ¬ w.ctl.Bridges ev) : (w.step compile ev).Unbridged := by
  intro d inPort ethPkt outPort he
  rcases learned_step hw.sound he with he | ⟨now, msg, ethPkt', rfl, hlearn, rfl, rfl⟩
  · exact h d inPort ethPkt outPort he
  · by_contra hne
    exact hev ((bridges_iff hw.routed).mpr ⟨ethPkt', hlearn, hne⟩)

/-- Where no learned entry leads elsewhere, a switch forwards IPv4 frames only. -/
theorem Unbridged.not_forwards {w : World} (h : w.Unbridged) (hw : w.Sound) {d : ℕ} {k : FlowKey}
    (hk : k.ethType ≠ some ETH_TYPE_IP) : ¬ (w.tables d).Forwards k :=
  hw.not_forwards_other hk (h d)

/-- What a packet-in that installs a learned entry makes the controller send: the entry, and the
frame unless the entry releases it. -/
theorem sends_of_learns {compile : ReCompile} {c c' : FirewallApp} {d : ℕ} {now : ℚ}
    {msg : PacketIn} {ms : ℕ → List OFPMsg} (h : Acted compile c (.packetIn d now msg) c' ms)
    {ethPkt : Ethernet} (hlearn : c.LearnsRoute d now msg ethPkt) :
    ms d = .flowMod (learnedMod msg ethPkt (c.routeOf d msg ethPkt)) ::
      if msg.bufferId ≠ OFP_NO_BUFFER then [] else [packetOutMsg msg (c.routeOf d msg ethPkt)] := by
  obtain ⟨hd, hv, heth, hl⟩ := hlearn
  obtain ⟨-, hms⟩ := h.of_allowed hd hv heth
  rw [hms, if_pos rfl, FirewallApp.forwardMsgs, if_pos hl]

/-- A bridging event leaves an entry from the one port to the other. -/
theorem exists_learnedEntry (compile : ReCompile) {w : World} (hw : w.LearnSound) {ev : Event}
    (hev : w.ctl.Bridges ev) :
    ∃ d now msg ethPkt outPort, ev = .packetIn d now msg ∧ w.ctl.LearnsRoute d now msg ethPkt ∧
      learnedEntry msg.inPort.no ethPkt outPort ∈ (w.step compile ev).tables d ∧
      outPort ≠ msg.inPort.no := by
  obtain ⟨d, now, msg, -, -, -, rfl, -⟩ := id hev
  obtain ⟨ethPkt, hlearn, hne⟩ := (bridges_iff hw.routed).mp hev
  refine ⟨d, now, msg, ethPkt, w.ctl.routeOf d msg ethPkt, rfl, hlearn, ?_, hne⟩
  obtain ⟨c', ms, hact, -, -, htables⟩ := step_spec compile hw.sound.keyed (.packetIn d now msg)
  rw [htables, sends_of_learns hact hlearn, FlowTable.applyAll_cons,
    FlowTable.apply_add _ (show (learnedMod ..).command = .add from rfl)]
  refine FlowTable.mem_applyAll_of_spares (FlowTable.mem_add_self _ _) fun m hm => ?_
  -- what follows the entry is at most the frame itself
  split at hm
  · exact absurd hm List.not_mem_nil
  · rw [List.mem_singleton.mp hm]
    trivial

/-- An entry between two ports forwards every frame between its stations that is not IPv4 and that
no drop entry takes. -/
theorem LearnSound.forwards_of_learned {w : World} (hw : w.LearnSound) {d inPort outPort : ℕ}
    {ethPkt : Ethernet} {k : FlowKey} (he : learnedEntry inPort ethPkt outPort ∈ w.tables d)
    (hne : outPort ≠ inPort) (hk : (learnedMatch inPort ethPkt).Covers k)
    (hip : k.ethType ≠ some ETH_TYPE_IP)
    (hdrop : ∀ ip, arpDropEntry ip ∈ w.tables d → ¬ (arpSpaMatch ip).Covers k) :
    (w.tables d).Forwards k := by
  refine ⟨_, he, ⟨he, hk, fun e' he' hk' => ?_⟩, ?_⟩
  · rcases (hw.sound.known d e' he').of_covers_other hk' hip with
      rfl | ⟨inPort', ethPkt', outPort', rfl⟩ | ⟨ip, rfl, -⟩
    · exact Nat.zero_le 1
    · exact le_rfl
    · exact absurd hk' (hdrop ip he')
  · obtain ⟨p, rfl⟩ := hw.ports d inPort ethPkt outPort he
    rw [outPorts_learnedEntry hk p.ne_controller, if_neg hne]
    exact List.cons_ne_nil _ _

end World

end SdnFirewall
