import SdnFirewall.Packet.Mininet
import SdnFirewall.System.History

/-!
# Verdicts as a matter of history

Which packets are rejected for their source, their port or their ARP claim, and where the others are
sent, follows from the events before them.
-/

namespace SdnFirewall

open Common OpenFlow Python

/-! ## The verdict on an ARP frame -/

/-- The verdict on an ARP frame. -/
def FirewallApp.arpVerdict (c : FirewallApp) (arpPkt : Arp) : CheckResult :=
  if c.arpTable.get? arpPkt.srcIp = none ∨ c.arpTable.get? arpPkt.srcIp = some arpPkt.srcMac then
    .allowed
  else .arpSpoof

section Verdict

variable {c : FirewallApp} {datapath : Datapath} {now : ℚ} {msg : PacketIn}

/-- An ARP frame has the verdict on its header. -/
theorem verdict?_arp_eq {ethPkt : Ethernet} (heth : msg.ethernet? = some ethPkt)
    (htype : ethPkt.ethertype = ETH_TYPE_ARP) :
    c.verdict? datapath now msg = (Packet.parse msg.data).arp.map c.arpVerdict := by
  rw [FirewallApp.verdict?, heth, Option.bind_some]
  rcases (filtered_filterOf c datapath now msg ethPkt).of_arp htype with
    ⟨hnone, hr⟩ | ⟨arpPkt, harp, hr⟩
  · rw [hr, hnone]
    rfl
  · rw [hr, harp, Option.map_some, FirewallApp.arpVerdict]
    cases c.arpTable.get? arpPkt.srcIp with
    | none => simp
    | some mac => by_cases hmac : mac = arpPkt.srcMac <;> simp [hmac]

/-- The verdict on ARP frames alone is about bindings. -/
theorem verdict?_eq_arpSpoof :
    c.verdict? datapath now msg = some .arpSpoof ↔ ∃ arpPkt mac, msg.arp? = some arpPkt ∧
      c.arpTable.get? arpPkt.srcIp = some mac ∧ mac ≠ arpPkt.srcMac := by
  constructor
  · intro hv
    obtain ⟨ethPkt, heth, hval⟩ := verdict?_eq_some.mp hv
    have htype := (filtered_filterOf c datapath now msg ethPkt).ethertype_of_arpSpoof hval
    rw [verdict?_arp_eq heth htype, Option.map_eq_some_iff] at hv
    obtain ⟨arpPkt, harp, hv⟩ := hv
    unfold FirewallApp.arpVerdict at hv
    split at hv
    · exact absurd hv (by simp)
    · rename_i hbound
      rw [not_or] at hbound
      obtain ⟨mac, hmac⟩ := Option.ne_none_iff_exists'.mp hbound.1
      refine ⟨arpPkt, mac, PacketIn.arp?_eq_some.mpr ⟨ethPkt, heth, htype, harp⟩, hmac, ?_⟩
      rintro rfl
      exact hbound.2 hmac
  · rintro ⟨arpPkt, mac, harp, hmac, hne⟩
    obtain ⟨ethPkt, heth, htype, hparse⟩ := PacketIn.arp?_eq_some.mp harp
    rw [verdict?_arp_eq heth htype, hparse, Option.map_some, FirewallApp.arpVerdict, if_neg]
    simp [hmac, hne]

end Verdict

/-! ## Verdicts on IPv4 packets -/

/-- Every address rule is an address, and every port rule names a port of TCP or UDP. -/
def World.RulesWritten (w : World) : Prop :=
  (∀ ip ∈ w.ctl.blockedIps, ipv4AddressOk ip = true) ∧
    ∀ rule ∈ w.ctl.blockedPorts, rule.1 ≤ 65535 ∧ (rule.2 = 6 ∨ rule.2 = 17)

/-- The texts of a port rule name a port of TCP or UDP. -/
theorem portRule_bounds {port proto : String} {rule : ℕ × ℕ} (h : portRule port proto = .ok rule) :
    rule.1 ≤ 65535 ∧ (rule.2 = 6 ∨ rule.2 = 17) := by
  unfold portRule at h
  split at h
  swap
  · exact absurd h (by simp)
  rename_i portInt protoInt _ _
  split at h
  · exact absurd h (by simp)
  rename_i hport
  split at h
  · exact absurd h (by simp)
  rename_i hproto
  obtain rfl := Except.ok.inj h
  rw [not_not] at hport hproto
  dsimp only
  omega

namespace Dissector

variable (dissect : Dissector) (compile : ReCompile) (dpi : DPIEngine) (evs : List Event)

/-- No event is about the allowlist. -/
theorem allowedIps_step (w : World) (ev : Event) :
    (dissect.step compile w ev).ctl.allowedIps = w.ctl.allowedIps := by
  show (dissect.handle compile w.ctl ev).1.allowedIps = w.ctl.allowedIps
  cases ev with
  | packetIn d now msg =>
      exact congrArg (fun wiring => wiring.2.2.2.2)
        (wiring_packetIn dissect compile w.ctl d now msg)
  | handshake | expire => rfl
  | rest req =>
      obtain ⟨c', msgs, hserved, hcore, -⟩ := serves_serve compile w.ctl req
      generalize ((serve compile req).run w.ctl).val = val at hserved
      have hkeep : c'.allowedIps = w.ctl.allowedIps := by cases hserved <;> rfl
      exact (congrArg (fun c => c.allowedIps) hcore).trans hkeep

/-- Nothing ever enters the allowlist. -/
theorem allowedIps_run : (dissect.run compile dpi evs).ctl.allowedIps = ∅ := by
  refine (runFrom_invariant (fun w : World => w.ctl.Keyed ∧ w.ctl.allowedIps = ∅) ?_
    ⟨keyed_init dpi, rfl⟩ evs).2
  rintro w ev ⟨hk, hw⟩
  exact ⟨keyed_dissected dissect compile w ev hk, (dissect.allowedIps_step compile w ev).trans hw⟩

/-- Only what is written so comes to be a rule. -/
theorem rulesWritten_run : (dissect.run compile dpi evs).RulesWritten := by
  refine (runFrom_invariant (fun w : World => w.ctl.Keyed ∧ w.RulesWritten) ?_
    ⟨keyed_init dpi, by simp [World.RulesWritten, World.init, FirewallApp.init]⟩ evs).2
  rintro w ev ⟨hk, hips, hports⟩
  refine ⟨keyed_dissected dissect compile w ev hk, ?_, ?_⟩
  -- an address comes to be a rule in one handler, which checks its text first
  · show ∀ ip ∈ (dissect.handle compile w.ctl ev).1.blockedIps, _
    by_cases hev : ev.RulesOnIp
    swap
    · rw [blockedIps_dissected dissect hk hev]
      exact hips
    obtain ⟨ip, rfl | rfl⟩ := hev
    · simp only [handle, FirewallApp.handle, serve, blockedIps_addBlockedIp]
      split
      · rename_i hok
        intro ip' hip'
        rcases Finset.mem_insert.mp hip' with rfl | hip'
        · exact hok
        · exact hips ip' hip'
      · exact hips
    · simp only [handle, FirewallApp.handle, serve, blockedIps_delBlockedIp]
      split
      · exact fun ip' hip' => hips ip' (Finset.mem_of_mem_erase hip')
      · exact hips
  -- so does a port, whose bounds are checked with its text
  · show ∀ rule ∈ (dissect.handle compile w.ctl ev).1.blockedPorts, _
    by_cases hev : ev.RulesOnPort
    swap
    · rw [blockedPorts_dissected dissect hk hev]
      exact hports
    obtain ⟨port, proto, rfl | rfl⟩ := hev
    · simp only [handle, FirewallApp.handle, serve, blockedPorts_addBlockedPort]
      cases hrule : portRule port proto with
      | error response => exact hports
      | ok rule =>
          intro rule' hrule'
          rcases Finset.mem_insert.mp hrule' with rfl | hrule'
          · exact portRule_bounds hrule
          · exact hports rule' hrule'
    · simp only [handle, FirewallApp.handle, serve, blockedPorts_delBlockedPort]
      cases portRule port proto with
      | error response => exact hports
      | ok rule => exact fun rule' hrule' => hports rule' (Finset.mem_of_mem_erase hrule')

/-- A source is rejected as blocked exactly when it is an address that the last request about it
blocked. -/
theorem sourceVerdict_eq_ipBlocked (now : ℚ) (src : String) :
    (dissect.run compile dpi evs).ctl.sourceVerdict now src = .ipBlocked ↔
      ∃ a : IPv4Address, src = a.text ∧ Blocks evs a = true := by
  have hmem : (dissect.run compile dpi evs).ctl.sourceVerdict now src = .ipBlocked ↔
      src ∈ (dissect.run compile dpi evs).ctl.blockedIps := by
    have hallow : ¬ ((dissect.run compile dpi evs).ctl.allowedIps ≠ ∅ ∧
        src ∉ (dissect.run compile dpi evs).ctl.allowedIps) :=
      fun h => h.1 (dissect.allowedIps_run compile dpi evs)
    rw [FirewallApp.sourceVerdict, if_neg hallow]
    split_ifs with hblocked <;> simp [hblocked]
  rw [hmem]
  constructor
  · intro hblocked
    have hok := (dissect.rulesWritten_run compile dpi evs).1 src hblocked
    rw [← IPv4Address.isSome_ofText?] at hok
    obtain ⟨a, ha⟩ := Option.isSome_iff_exists.mp hok
    obtain rfl := IPv4Address.text_of_ofText? ha
    exact ⟨a, rfl, (dissect.mem_blockedIps_run compile dpi evs a).mp hblocked⟩
  · rintro ⟨a, rfl, hblocks⟩
    exact (dissect.mem_blockedIps_run compile dpi evs a).mpr hblocks

/-- A packet-in has a verdict only from a connected switch. -/
theorem verdictOf?_eq_some {c : FirewallApp} {d : ℕ} {now : ℚ} {msg : PacketIn}
    {result : CheckResult} :
    dissect.verdictOf? c (.packetIn d now msg) = some result ↔
      d ∈ c.datapaths.keys ∧ dissect.verdict? c ⟨d⟩ now msg = some result := by
  rw [verdictOf?, Option.ite_none_right_eq_some]

/-- Whatever `packet.Packet` makes of frames, a packet-in is rejected for its source address exactly
when its frame is read as IPv4 and the last request about the address its header names blocked
it. -/
theorem ipBlocked_iff (d : ℕ) (now : ℚ) (msg : PacketIn) :
    dissect.verdictOf? (dissect.run compile dpi evs).ctl (.packetIn d now msg) =
        some .ipBlocked ↔
      Announced evs d = true ∧ msg.Proceeds ∧
        ∃ pkt ethPkt ipPkt, dissect msg.data = .ok pkt ∧ pkt.ethernet = some ethPkt ∧
          ethPkt.ethertype = ETH_TYPE_IP ∧ pkt.ipv4 = some ipPkt ∧
          ∃ a : IPv4Address, ipPkt.src = a.text ∧ Blocks evs a = true := by
  rw [verdictOf?_eq_some, ← dissect.connected_run compile dpi evs d, World.Connected]
  refine and_congr_right fun _ => ?_
  rw [dissected_verdict?_iff (by decide) (by decide)]
  simp only [ipv4Verdict?_ofSource (show CheckResult.ipBlocked.OfSource from trivial),
    sourceVerdict_eq_ipBlocked]

/-- Whatever `packet.Packet` makes of frames, a packet-in is rejected for its port exactly when its
frame is read as TCP or UDP over IPv4, its source passes, and the last request about its destination
port blocked it. -/
theorem portBlocked_iff (d : ℕ) (now : ℚ) (msg : PacketIn) :
    dissect.verdictOf? (dissect.run compile dpi evs).ctl (.packetIn d now msg) =
        some .portBlocked ↔
      Announced evs d = true ∧ msg.Proceeds ∧
        ∃ pkt ethPkt ipPkt, dissect msg.data = .ok pkt ∧ pkt.ethernet = some ethPkt ∧
          ethPkt.ethertype = ETH_TYPE_IP ∧ pkt.ipv4 = some ipPkt ∧
          (dissect.run compile dpi evs).ctl.sourceVerdict now ipPkt.src = .allowed ∧
          ∃ l4Pkt, l4Of pkt ipPkt = some l4Pkt ∧
            BlocksPort evs (l4Pkt.dstPort, ipPkt.proto) = true := by
  rw [verdictOf?_eq_some, ← dissect.connected_run compile dpi evs d, World.Connected]
  refine and_congr_right fun _ => ?_
  rw [dissected_verdict?_iff (by decide) (by decide)]
  simp only [ipv4Verdict?_portBlocked, mem_blockedPorts_run]

end Dissector

namespace World

variable (compile : ReCompile) (dpi : DPIEngine) (evs : List Event)

/-- A packet-in is rejected as a forgery exactly when the first claim of its sender's address since
the last handshake named another station. -/
theorem arpSpoof_iff (d : ℕ) (now : ℚ) (msg : PacketIn) :
    (run compile dpi evs).ctl.verdictOf? (.packetIn d now msg) = some .arpSpoof ↔
      Announced evs d = true ∧ ∃ arpPkt mac, msg.arp? = some arpPkt ∧
        firstClaim evs arpPkt.srcIp = some mac ∧ mac ≠ arpPkt.srcMac := by
  rw [verdictOf?_eq_some, ← connected_run compile dpi evs d, Connected, verdict?_eq_arpSpoof]
  simp only [arpTable_run]

/-! ## Where frames are sent -/

/-- The ports of the messages that forward a frame. -/
theorem framePorts_of_mem_forwardMsgs {c : FirewallApp} {msg : PacketIn} {pkt : Packet}
    {ethPkt : Ethernet} {outPort : ℕ} {m : OFPMsg}
    (hm : m ∈ c.forwardMsgs msg pkt ethPkt outPort) (hout : m.Outputs) :
    m.framePorts = [outPort] := by
  rcases mem_forwardMsgs hm with ⟨-, rfl⟩ | rfl | ⟨ipPkt, l4Pkt, -, -, mod, hmod, rfl⟩
  · exact if_pos ⟨hout.1, hout.2.1⟩
  · rfl
  · simp only [trustMods, List.mem_cons, List.not_mem_nil, or_false] at hmod
    rcases hmod with rfl | rfl <;> exact absurd rfl hout.2.1

/-- Whatever makes the controller send a frame out is a packet-in, and the frame goes to the port on
which its destination was last seen in a packet-in that got a verdict, itself included, or to all
ports if it never was. -/
theorem outputs_run {ev : Event} {d : ℕ} {m : OFPMsg}
    (hm : m ∈ (run compile dpi evs).sends compile ev d) (hout : m.Outputs) :
    ∃ now msg ethPkt, ev = .packetIn d now msg ∧ msg.ethernet? = some ethPkt ∧
      m.framePorts = [(lastSighting compile dpi (evs ++ [ev]) d ethPkt.dst).getD OFPP_FLOOD] := by
  have hk := (sound_run compile dpi evs).keyed
  obtain ⟨c', ms, hact, -, hsent, -⟩ := step_spec compile hk ev
  have hallowed := allowed_of_sends hk hm hout
  cases ev with
  | handshake | rest | expire => exact absurd hallowed (by simp [FirewallApp.verdictOf?])
  | packetIn d' now msg =>
      obtain ⟨hd, hv⟩ := verdictOf?_eq_some.mp hallowed
      obtain ⟨ethPkt, heth, -⟩ := verdict?_eq_some.mp hv
      obtain ⟨-, hms⟩ := hact.of_allowed hd hv heth
      rw [hsent, hms] at hm
      split at hm
      swap
      · exact absurd hm List.not_mem_nil
      rename_i hdd
      subst hdd
      refine ⟨now, msg, ethPkt, rfl, heth, ?_⟩
      rw [framePorts_of_mem_forwardMsgs hm hout, ← portsOf_run, run_concat]
      have hloc : (run compile dpi evs).ctl.Locates (.packetIn d now msg) d ethPkt.src msg.inPort :=
        ⟨now, msg, ethPkt, rfl, by rw [hallowed, Option.isSome_some], heth, rfl, rfl⟩
      -- the frame teaches where its sender is before it is sent on
      have hports : ((run compile dpi evs).step compile (.packetIn d now msg)).ctl.portsOf d =
          ((run compile dpi evs).ctl.portsOf d).set ethPkt.src msg.inPort.no :=
        portsOf_of_locates hk hloc
      rw [hports, FirewallApp.routeOf, FirewallApp.outPortOf, FirewallApp.portsOf_learnMac]

/-- Host 1 answers host 2 after the switch has heard of both. -/
theorem outputs_run_knownHost :
    ∃ now msg ethPkt, Event.packetIn 1 1 (packetInFrom 1 (arpFrame 1 2 1)) = .packetIn 1 now msg ∧
      msg.ethernet? = some ethPkt ∧
      (packetOutMsg (packetInFrom 1 (arpFrame 1 2 1)) 3).framePorts =
        [(lastSighting builtinCompile builtinEngine ([.handshake 1,
          .packetIn 1 0 (packetInFrom 2 (arpFrame 2 1 2))] ++
            [.packetIn 1 1 (packetInFrom 1 (arpFrame 1 2 1))]) 1 ethPkt.dst).getD OFPP_FLOOD] :=
  outputs_run builtinCompile builtinEngine
    [.handshake 1, .packetIn 1 0 (packetInFrom 2 (arpFrame 2 1 2))] (by decide +kernel)
    (by decide)

/-! ## Rules can be withdrawn -/

/-- The rule that its own listing names. -/
theorem portRule_toString {rule : ℕ × ℕ} (hport : rule.1 ≤ 65535)
    (hproto : rule.2 = 6 ∨ rule.2 = 17) :
    portRule (toString rule.1) (toString rule.2) = .ok rule := by
  have hlen : ∀ n : ℕ, n ≤ 65535 → (Nat.toDigits 10 n).length ≤ 4300 := by
    intro n hn
    refine le_trans ((Nat.length_toDigits_le_iff (k := 5) (by decide) (by decide)).mpr ?_)
      (by decide)
    omega
  rw [portRule, intOfString_toString (hlen _ hport), intOfString_toString (hlen _ (by omega))]
  dsimp only
  rw [if_neg (by omega), if_neg (by omega)]
  rfl

/-- A request to withdraw a blocked address is accepted. -/
theorem accepted_delBlockedIp {c : FirewallApp} {ip : String} (hok : ipv4AddressOk ip = true)
    (hmem : ip ∈ c.blockedIps) : (Request.delBlockedIp ip).Accepted compile c := by
  refine ⟨{ body := .blockedIps (c.blockedIps.erase ip) }, ?_, rfl⟩
  simp [serve, delBlockedIp, hok, hmem]

/-- So is one to withdraw a port that its texts name. -/
theorem accepted_delBlockedPort {c : FirewallApp} {port proto : String} {rule : ℕ × ℕ}
    (hrule : portRule port proto = .ok rule) :
    (Request.delBlockedPort port proto).Accepted compile c := by
  refine ⟨{ body := .blockedPorts (c.blockedPorts.erase rule) }, ?_, rfl⟩
  simp [serve, delBlockedPort, hrule]

/-- With the plain parser, too, only what is written so comes to be a rule. -/
theorem rulesWritten_run : (run compile dpi evs).RulesWritten := by
  rw [← run_plain]
  exact Dissector.plain.rulesWritten_run compile dpi evs

/-- Every rule is withdrawn by the request that names it as it is listed, and no other rule with
it. -/
structure Withdraws (w : World) : Prop where
  ip : ∀ ip ∈ w.ctl.blockedIps, (Request.delBlockedIp ip).Accepted compile w.ctl ∧
    (w.step compile (.rest (.delBlockedIp ip))).ctl.blockedIps = w.ctl.blockedIps.erase ip ∧
    (w.step compile (.rest (.delBlockedIp ip))).ctl.blockedPorts = w.ctl.blockedPorts
  port : ∀ port proto, (port, proto) ∈ w.ctl.blockedPorts →
    (Request.delBlockedPort (toString port) (toString proto)).Accepted compile w.ctl ∧
    (w.step compile (.rest (.delBlockedPort (toString port) (toString proto)))).ctl.blockedPorts =
      w.ctl.blockedPorts.erase (port, proto) ∧
    (w.step compile (.rest (.delBlockedPort (toString port) (toString proto)))).ctl.blockedIps =
      w.ctl.blockedIps

/-- The controller's part of a step is what it makes of the event. -/
theorem step_ctl (w : World) (ev : Event) :
    (w.step compile ev).ctl = (w.ctl.handle compile ev).1 := rfl

/-- Rules written in this form can be withdrawn. -/
theorem withdraws_of_rulesWritten {w : World} (hk : w.ctl.Keyed) (h : w.RulesWritten) :
    Withdraws compile w := by
  obtain ⟨hips, hports⟩ := h
  constructor
  · intro ip hip
    have hok := hips ip hip
    rw [step_ctl]
    refine ⟨accepted_delBlockedIp compile hok hip, ?_, ?_⟩
    · simp only [FirewallApp.handle, serve, blockedIps_delBlockedIp, if_pos hok]
    · exact blockedPorts_handle hk (by simp [Event.RulesOnPort])
  · intro port proto hrule
    obtain ⟨hport, hproto⟩ := hports (port, proto) hrule
    have hread := portRule_toString hport hproto
    rw [step_ctl]
    refine ⟨accepted_delBlockedPort compile hread, ?_, ?_⟩
    · simp only [FirewallApp.handle, serve, blockedPorts_delBlockedPort, hread]
      rfl
    · exact blockedIps_handle hk (by simp [Event.RulesOnIp])

/-- Whatever has happened, every rule in force can be withdrawn. -/
theorem withdraws_run : Withdraws compile (run compile dpi evs) :=
  withdraws_of_rulesWritten compile (sound_run compile dpi evs).keyed
    (rulesWritten_run compile dpi evs)

end World

end SdnFirewall
