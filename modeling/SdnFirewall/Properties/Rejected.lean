import SdnFirewall.Packet.Mininet
import SdnFirewall.System.Learning

/-!
# Rejected packets and forwarding

The handler learns the sender of a frame before it looks at the verdict. What a rejected frame has
taught the controller is seen by every later frame to that station.
-/

namespace SdnFirewall

open Common OpenFlow Python

/-! ## The sender is learned whatever the verdict -/

/-- The packet-in comes from a station that is already learned there. -/
def FirewallApp.KnowsSender (c : FirewallApp) : Event → Prop
  | .packetIn d _ msg => ∃ ethPkt, msg.ethernet? = some ethPkt ∧
      (c.portsOf d).get? ethPkt.src = some msg.inPort.no
  | _ => False

/-- Learning changes nothing exactly when the station is already learned there. -/
theorem learnMac_eq_self_iff {c : FirewallApp} {d : ℕ} {mac : String} {port : ℕ} :
    (c.learnMac d mac port).macToPort = c.macToPort ↔ (c.portsOf d).get? mac = some port := by
  constructor
  · intro h
    have hports : (c.learnMac d mac port).portsOf d = c.portsOf d := by
      rw [FirewallApp.portsOf, h, FirewallApp.portsOf]
    rw [← hports, FirewallApp.portsOf_learnMac, Dict.get?_set_self]
  · intro h
    rw [FirewallApp.learnMac_macToPort, Dict.set_eq_self h]
    apply Dict.set_eq_self
    -- a switch with a learned station has a table of its own
    unfold FirewallApp.portsOf at h ⊢
    cases hports : c.macToPort.get? (FirewallApp.dpidKey d) with
    | none => rw [hports] at h; exact absurd h (by simp)
    | some ports => rfl

namespace World

/-- The world with the given learning table. -/
def withMacToPort (w : World) (macToPort : Dict String (Dict String ℕ)) : World :=
  { w with ctl := { w.ctl with macToPort } }

/-- What a switch is sent in the course of a run. -/
def traffic (compile : ReCompile) (w : World) (evs : List Event) (d : ℕ) : List OFPMsg :=
  outputs (step compile) (fun w ev => w.sends compile ev d) w evs

/-- In every continuation the switches are sent what they would be sent had the event not touched
the learning table. -/
def NoInfluence (compile : ReCompile) (w : World) (ev : Event) : Prop :=
  ∀ later d, traffic compile (w.step compile ev) later d =
    traffic compile ((w.step compile ev).withMacToPort w.ctl.macToPort) later d

/-- A rejected packet-in leaves the learning table with its sender in it. -/
theorem macToPort_step_of_rejected (compile : ReCompile) {w : World} {d : ℕ} {now : ℚ}
    {msg : PacketIn} {result : CheckResult}
    (hv : w.ctl.verdictOf? (.packetIn d now msg) = some result) (hrej : result ≠ .allowed) :
    ∃ ethPkt, msg.ethernet? = some ethPkt ∧
      (w.step compile (.packetIn d now msg)).ctl.macToPort =
        (w.ctl.learnMac d ethPkt.src msg.inPort.no).macToPort := by
  obtain ⟨hd, hv⟩ := verdictOf?_eq_some.mp hv
  obtain ⟨ethPkt, heth, hcore, -⟩ := packetIn_rejected hv hrej
  refine ⟨ethPkt, heth, ?_⟩
  have hstate : (w.step compile (.packetIn d now msg)).ctl =
      ((packetInHandler ⟨d⟩ now msg).run w.ctl).state := by
    simp only [step, FirewallApp.handle, if_pos hd]
  rw [hstate, ← macToPort_afterLearning w.ctl ⟨d⟩ now msg ethPkt]
  have hmac := congrArg (fun c => c.macToPort) hcore
  exact hmac

/-- A rejected packet-in leaves the learned stations alone exactly if its sender was known there. -/
theorem macToPort_step_iff (compile : ReCompile) {w : World} {ev : Event} {result : CheckResult}
    (hv : w.ctl.verdictOf? ev = some result) (hrej : result ≠ .allowed) :
    (w.step compile ev).ctl.macToPort = w.ctl.macToPort ↔ w.ctl.KnowsSender ev := by
  cases ev with
  | handshake | rest | expire => exact absurd hv (by simp [FirewallApp.verdictOf?])
  | packetIn d now msg =>
      obtain ⟨ethPkt, heth, hmac⟩ := macToPort_step_of_rejected compile hv hrej
      rw [hmac, learnMac_eq_self_iff]
      constructor
      · exact fun h => ⟨ethPkt, heth, h⟩
      · rintro ⟨ethPkt', heth', h⟩
        obtain rfl : ethPkt = ethPkt' := by simpa [heth] using heth'
        exact h

end World

/-! ## What was learned shows in the traffic -/

/-- An ARP frame from host `n` to any station. -/
def arpFrameTo (n : UInt8) (dst : Bytes) : Bytes :=
  dst ++ stationOf n ++ [0x08, 0x06] ++
    [0, 1, 8, 0, 6, 4, 0, 1] ++ stationOf n ++ addressOf n ++ dst ++ addressOf n

/-- A station is written out from its six bytes. -/
theorem macText_eq {buf station : Bytes} {i : ℕ} (h : (buf.drop i).take 6 = station) :
    macText buf i = macText station 0 := by
  simp [macText, ← h, List.take_take]

/-- The probe's Ethernet header names its station and the sender's. -/
theorem parser_arpFrameTo (n : UInt8) {dst : Bytes} (hdst : dst.length = 6) :
    Ethernet.parser (arpFrameTo n dst) =
      some (⟨macText dst 0, macText (stationOf n) 0, ETH_TYPE_ARP⟩,
        [0, 1, 8, 0, 6, 4, 0, 1] ++ stationOf n ++ addressOf n ++ dst ++ addressOf n) := by
  obtain ⟨a, b, c, d, e, f, rfl⟩ : ∃ a b c d e f, dst = [a, b, c, d, e, f] := by
    match dst, hdst with
    | [a, b, c, d, e, f], _ => exact ⟨a, b, c, d, e, f, rfl⟩
  have hfirst : ((arpFrameTo n [a, b, c, d, e, f]).drop 0).take 6 = [a, b, c, d, e, f] := rfl
  have hsecond : ((arpFrameTo n [a, b, c, d, e, f]).drop 6).take 6 = stationOf n := rfl
  have htype : u16 (arpFrameTo n [a, b, c, d, e, f]) 12 = ETH_TYPE_ARP := by
    simp [u16, u8, arpFrameTo, stationOf, ETH_TYPE_ARP]
  have hlen : ¬ (arpFrameTo n [a, b, c, d, e, f]).length < 14 := by
    simp [arpFrameTo, stationOf, addressOf]
  have hrest : (arpFrameTo n [a, b, c, d, e, f]).drop 14 =
      [0, 1, 8, 0, 6, 4, 0, 1] ++ stationOf n ++ addressOf n ++ [a, b, c, d, e, f] ++
        addressOf n := rfl
  rw [Ethernet.parser, if_neg hlen, htype, macText_eq hfirst, macText_eq hsecond, hrest]

/-- The probe is parsed as ARP. -/
theorem parse_arpFrameTo (n : UInt8) {dst : Bytes} (hdst : dst.length = 6) :
    ∃ arpPkt, Packet.parse (arpFrameTo n dst) =
      { ethernet := some ⟨macText dst 0, macText (stationOf n) 0, ETH_TYPE_ARP⟩
        arp := some arpPkt } := by
  have hblank : isBlank (arpFrameTo n dst) = false := by
    simp [isBlank, arpFrameTo]
  have hne : ETH_TYPE_ARP ≠ ETH_TYPE_IP := by decide
  rw [Packet.parse, hblank, parser_arpFrameTo n hdst]
  simp only [Bool.false_eq_true, if_false, if_neg hne, if_true, Packet.parseArp]
  have hrest : isBlank ([0, 1, 8, 0, 6, 4, 0, 1] ++ stationOf n ++ addressOf n ++ dst ++
      addressOf n) = false := by
    simp [isBlank]
  have hlen : ¬ ([0, 1, 8, 0, 6, 4, 0, 1] ++ stationOf n ++ addressOf n ++ dst ++
      addressOf n).length < 28 := by
    simp [stationOf, addressOf, hdst]
  rw [hrest, Arp.parser, if_neg hlen]
  exact ⟨_, rfl⟩

/-- The stations a frame names are six bytes of it. -/
theorem exists_station {msg : PacketIn} {ethPkt : Ethernet} (h : msg.ethernet? = some ethPkt) :
    ∃ station : Bytes, station.length = 6 ∧ macText station 0 = ethPkt.src := by
  have hparse := ethernet_of_ethernet? h
  -- the parsers behind the Ethernet header leave its fields alone
  have hheader : ∃ rest, Ethernet.parser msg.data = some (ethPkt, rest) := by
    unfold Packet.parse at hparse
    split at hparse
    · exact absurd hparse (by simp)
    · cases hp : Ethernet.parser msg.data with
      | none => rw [hp] at hparse; exact absurd hparse (by simp)
      | some er =>
          obtain ⟨eth, rest⟩ := er
          rw [hp] at hparse
          dsimp only at hparse
          refine ⟨rest, ?_⟩
          split_ifs at hparse
          · rw [(Packet.parseIpv4_fields eth rest).1] at hparse
            rw [Option.some.inj hparse]
          · rw [(Packet.parseArp_fields eth rest).1] at hparse
            rw [Option.some.inj hparse]
          · rw [Option.some.inj hparse]
  obtain ⟨rest, hp⟩ := hheader
  unfold Ethernet.parser at hp
  split at hp
  · exact absurd hp (by simp)
  · obtain ⟨rfl, -⟩ := Prod.mk.inj (Option.some.inj hp)
    refine ⟨(msg.data.drop 6).take 6, ?_, ?_⟩
    · rw [List.length_take, List.length_drop]
      omega
    · exact (macText_eq rfl).symm

/-- The packet-in a frame of host `n` to a station raises. -/
def probe (n : UInt8) (dst : Bytes) : PacketIn := packetInFrom n (arpFrameTo n dst)

/-- Its packet-in passes the guards. -/
theorem ethernet?_probe (n : UInt8) {dst : Bytes} (hdst : dst.length = 6) :
    (probe n dst).ethernet? =
      some ⟨macText dst 0, macText (stationOf n) 0, ETH_TYPE_ARP⟩ := by
  obtain ⟨arpPkt, hparse⟩ := parse_arpFrameTo n hdst
  have hne : arpFrameTo n dst ≠ [] := by simp [arpFrameTo]
  have hlen : ¬ (probe n dst).msgLen < (probe n dst).totalLen := by simp [probe, packetInFrom]
  have hguard : ¬ ((probe n dst).data = [] ∨ (probe n dst).msgLen < (probe n dst).totalLen) :=
    not_or.mpr ⟨hne, hlen⟩
  rw [PacketIn.ethernet?, if_neg hguard]
  exact congrArg Packet.ethernet hparse

/-- Without bindings an ARP frame is sent on, to the port of its destination. -/
theorem packetOut_mem_probe {compile : ReCompile} {c : FirewallApp} {d : ℕ}
    (hd : d ∈ c.datapaths.keys) (harp : c.arpTable = .empty) (n : UInt8) {dst : Bytes}
    (hdst : dst.length = 6) (hne : macText dst 0 ≠ macText (stationOf n) 0) (out : OFPPacketOut) :
    OFPMsg.packetOut out ∈ sentTo d (c.handle compile (.packetIn d 0 (probe n dst))).2 ↔
      OFPMsg.packetOut out = packetOutMsg (probe n dst)
        (((c.portsOf d).get? (macText dst 0)).getD OFPP_FLOOD) := by
  have heth := ethernet?_probe n hdst
  have hv : c.verdict? ⟨d⟩ 0 (probe n dst) = some .allowed := by
    obtain ⟨arpPkt, hparse⟩ := parse_arpFrameTo n hdst
    refine (verdict?_arp heth rfl).mpr ⟨arpPkt, congrArg Packet.arp hparse, ?_⟩
    rintro ⟨mac, hmac, -⟩
    rw [harp] at hmac
    exact absurd hmac (by simp)
  obtain ⟨ethPkt, heth', -, hsent⟩ := packetIn_allowed hv
  obtain rfl := Option.some.inj (heth.symm.trans heth')
  -- the frame teaches the port of its sender, which is another station
  have hroute : c.routeOf d (probe n dst) ⟨macText dst 0, macText (stationOf n) 0, ETH_TYPE_ARP⟩ =
      ((c.portsOf d).get? (macText dst 0)).getD OFPP_FLOOD := by
    rw [FirewallApp.routeOf, FirewallApp.outPortOf, FirewallApp.portsOf_learnMac,
      Dict.get?_set_ne _ _ hne]
  simp only [FirewallApp.handle, if_pos hd, hsent, if_true, hroute]
  constructor
  · intro hm
    rcases mem_forwardMsgs hm with ⟨-, h⟩ | h | ⟨_, _, -, -, _, -, h⟩
    · exact absurd h (by simp)
    · exact h
    · exact absurd h (by simp)
  · intro h
    rw [h, FirewallApp.forwardMsgs]
    split
    · exact List.mem_cons_of_mem _ (by simp [probe, packetInFrom])
    · exact List.mem_cons_self

/-- Packet-outs to different ports differ. -/
theorem packetOutMsg_injective (msg : PacketIn) : Function.Injective (packetOutMsg msg) := by
  intro p p' h
  simpa [packetOutMsg] using h

/-- Some host has another station. -/
theorem exists_other_station (mac : String) : ∃ n : UInt8, mac ≠ macText (stationOf n) 0 := by
  by_cases h : mac = macText (stationOf 1) 0
  · exact ⟨2, by rw [h]; decide⟩
  · exact ⟨1, h⟩

namespace World

/-- After another handshake, what a switch sends a frame for a station to is the port learned for
it. -/
theorem packetOut_mem_traffic (compile : ReCompile) (w : World) (d : ℕ) {n : UInt8} {dst : Bytes}
    (hdst : dst.length = 6) (hne : macText dst 0 ≠ macText (stationOf n) 0) :
    ∃ before after, traffic compile w [.handshake d, .packetIn d 0 (probe n dst)] d =
        before ++ after ∧ before = [.flowMod missMod, .flowMod catchAllMod] ∧
      ∀ out, OFPMsg.packetOut out ∈ after ↔ OFPMsg.packetOut out = packetOutMsg (probe n dst)
        (((w.ctl.portsOf d).get? (macText dst 0)).getD OFPP_FLOOD) := by
  refine ⟨_, _, rfl, ?_, fun out => ?_⟩
  · simp only [sends, FirewallApp.handle, run_switchHandshakeHandler, sentTo_cons_sendMsg,
      sentTo_nil, if_true]
    rfl
  · have hd : d ∈ (w.step compile (.handshake d)).ctl.datapaths.keys :=
      Dict.mem_keys_set.mpr (Or.inl rfl)
    rw [outputs, outputs, List.append_nil]
    exact packetOut_mem_probe hd rfl n hdst hne out

/-- A rejected packet has no influence exactly when it comes from where its sender has already been
learned; then it leaves the learning table as it is. -/
theorem noInfluence_iff (compile : ReCompile) {w : World} {ev : Event} {result : CheckResult}
    (hv : w.ctl.verdictOf? ev = some result) (hrej : result ≠ .allowed) :
    ((w.step compile ev).ctl.macToPort = w.ctl.macToPort ↔ w.ctl.KnowsSender ev) ∧
      (w.NoInfluence compile ev ↔ w.ctl.KnowsSender ev) := by
  have hsame := macToPort_step_iff compile hv hrej
  refine ⟨hsame, ⟨fun h => ?_, fun h later d => ?_⟩⟩
  · cases ev with
    | handshake | rest | expire => exact absurd hv (by simp [FirewallApp.verdictOf?])
    | packetIn d now msg =>
        obtain ⟨ethPkt, heth, hmac⟩ := macToPort_step_of_rejected compile hv hrej
        refine ⟨ethPkt, heth, ?_⟩
        obtain ⟨dst, hdst, hsrc⟩ := exists_station heth
        obtain ⟨n, hne⟩ := exists_other_station ethPkt.src
        rw [← hsrc] at hne
        -- a frame to the station shows where it is believed to be
        obtain ⟨before, after, heq, hbefore, hafter⟩ := packetOut_mem_traffic compile
          (w.step compile (.packetIn d now msg)) d hdst hne
        obtain ⟨before', after', heq', hbefore', hafter'⟩ := packetOut_mem_traffic
          compile ((w.step compile (.packetIn d now msg)).withMacToPort w.ctl.macToPort) d hdst hne
        have hsuffix : after = after' := by
          have htraffic := h [.handshake d, .packetIn d 0 (probe n dst)] d
          rw [heq, heq', hbefore, hbefore'] at htraffic
          exact List.append_cancel_left htraffic
        have hlearned : ((w.step compile (.packetIn d now msg)).ctl.portsOf d).get?
            (macText dst 0) = some msg.inPort.no := by
          rw [FirewallApp.portsOf, hmac, ← FirewallApp.portsOf, FirewallApp.portsOf_learnMac, hsrc,
            Dict.get?_set_self]
        rw [hlearned, Option.getD_some] at hafter
        have hold : ((w.step compile (.packetIn d now msg)).withMacToPort
            w.ctl.macToPort).ctl.portsOf d = w.ctl.portsOf d := rfl
        rw [hold] at hafter'
        have hport := packetOutMsg_injective _
          ((hafter' _).mp (hsuffix ▸ (hafter _).mpr rfl))
        rw [← hsrc]
        cases hget : (w.ctl.portsOf d).get? (macText dst 0) with
        | none =>
            rw [hget] at hport
            exact absurd hport msg.inPort.ne_flood
        | some port =>
            rw [hget] at hport
            exact congrArg some hport.symm
  · have hself : (w.step compile ev).withMacToPort w.ctl.macToPort = w.step compile ev := by
      rw [← hsame.mpr h]
      rfl
    rw [hself]

/-- Host 1 has been learned at its port, and an address is blocked. -/
def learnedHostRun : List Event :=
  [.handshake 1, .packetIn 1 0 (packetInFrom 1 (arpFrame 1 2 1)), .rest (.addBlockedIp "10.0.0.9")]

/-- A packet from the blocked address, sent by host 2 under the station of host 1. -/
def stolenStation : Event :=
  .packetIn 1 0 (packetInFrom 2 (stationOf 3 ++ stationOf 1 ++ (udpFrame 9 3 1 1).drop 12))

/-- A rejected frame that names another host's station as its sender has influence. -/
theorem noInfluence_iff_stolenStation :
    let w := run builtinCompile builtinEngine learnedHostRun
    ((w.step builtinCompile stolenStation).ctl.macToPort = w.ctl.macToPort ↔
        w.ctl.KnowsSender stolenStation) ∧
      (w.NoInfluence builtinCompile stolenStation ↔ w.ctl.KnowsSender stolenStation) := by
  have hv : (run builtinCompile builtinEngine learnedHostRun).ctl.verdictOf? stolenStation =
      some .ipBlocked := by
    decide +kernel
  exact noInfluence_iff builtinCompile hv (by decide)

/-- The packet is rejected, but host 1 is now believed to be at the port of host 2, and what is sent
to host 1 goes there. -/
theorem not_noInfluence_stolenStation :
    let w := run builtinCompile builtinEngine learnedHostRun
    w.ctl.verdictOf? stolenStation = some .ipBlocked ∧
      (w.step builtinCompile stolenStation).ctl.macToPort ≠ w.ctl.macToPort ∧
      ¬ w.NoInfluence builtinCompile stolenStation := by
  refine ⟨by decide +kernel, fun h => ?_, fun h => ?_⟩
  · have hports := congrArg (fun table => ((table.get? (FirewallApp.dpidKey 1)).getD .empty).get?
      "00:00:00:00:00:01") h
    revert hports
    decide +kernel
  · have htraffic := h [.packetIn 1 0 (packetInFrom 3 (arpFrame 3 1 3))] 1
    revert htraffic
    decide +kernel

end World

end SdnFirewall
