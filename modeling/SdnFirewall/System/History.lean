import SdnFirewall.Common.Registers
import SdnFirewall.Packet.Addresses
import SdnFirewall.System.Dissection
import SdnFirewall.System.Learning

/-!
# What the history tells

The rules, the ARP bindings and the learned ports of a reachable state are told by the events that
led to it: a rule by the last request about it, a binding by the first claim since the last
handshake, a learned port by the last frame that showed its station.
-/

namespace SdnFirewall

open Common OpenFlow Python

/-! ## Rulings -/

/-- What an event rules on an address: a request blocks it or unblocks it. -/
def Event.rulingOn? (a : IPv4Address) : Event → Option Bool
  | .rest (.addBlockedIp ip) => if ip = a.text then some true else none
  | .rest (.delBlockedIp ip) => if ip = a.text then some false else none
  | _ => none

/-- What an event rules on a port of a protocol. -/
def Event.rulingOnPort? (rule : ℕ × ℕ) : Event → Option Bool
  | .rest (.addBlockedPort port proto) =>
    if (portRule port proto).toOption = some rule then some true else none
  | .rest (.delBlockedPort port proto) =>
    if (portRule port proto).toOption = some rule then some false else none
  | _ => none

/-- The last ruling on the address blocks it. -/
def Blocks (evs : List Event) (a : IPv4Address) : Bool :=
  (evs.filterMap (Event.rulingOn? a)).getLast?.getD false

/-- The last ruling on the port blocks it. -/
def BlocksPort (evs : List Event) (rule : ℕ × ℕ) : Bool :=
  (evs.filterMap (Event.rulingOnPort? rule)).getLast?.getD false

/-- The event is a request to one of the two routes that rule on addresses. -/
def Event.RulesOnIp (ev : Event) : Prop :=
  ∃ ip, ev = .rest (.addBlockedIp ip) ∨ ev = .rest (.delBlockedIp ip)

/-- The event is a request to one of the two routes that rule on ports. -/
def Event.RulesOnPort (ev : Event) : Prop :=
  ∃ port proto, ev = .rest (.addBlockedPort port proto) ∨ ev = .rest (.delBlockedPort port proto)

section Handle

variable {compile : ReCompile} {c : FirewallApp}

/-- A request to block changes the blocked addresses if its text is an address. -/
theorem blockedIps_addBlockedIp (c : FirewallApp) (ip : String) :
    ((addBlockedIp ip).run c).state.blockedIps =
      if ipv4AddressOk ip = true then insert ip c.blockedIps else c.blockedIps := by
  rcases run_addBlockedIp_cases c ip with ⟨hok, val, hrun, -⟩ | ⟨hok, body, h⟩
  · rw [hrun, if_neg hok]
  · rw [if_pos hok]
    exact congrArg (fun c => c.blockedIps) h.core

/-- So does a request to withdraw one. -/
theorem blockedIps_delBlockedIp (c : FirewallApp) (ip : String) :
    ((delBlockedIp ip).run c).state.blockedIps =
      if ipv4AddressOk ip = true then c.blockedIps.erase ip else c.blockedIps := by
  simp only [delBlockedIp, Prog.run_bind, Prog.run_read, Outcome.andThen_ok]
  by_cases hok : ipv4AddressOk ip = true
  swap
  · rw [if_pos hok, if_neg hok]
    rfl
  rw [if_neg (not_not.mpr hok), if_pos hok]
  by_cases hmem : ip ∈ c.blockedIps
  · rw [if_neg (not_not.mpr hmem)]
    rfl
  · rw [if_pos hmem, Finset.erase_eq_of_notMem hmem]
    rfl

/-- A request to block a port changes the blocked ports if its texts name one. -/
theorem blockedPorts_addBlockedPort (c : FirewallApp) (port proto : String) :
    ((addBlockedPort port proto).run c).state.blockedPorts =
      (portRule port proto).toOption.elim c.blockedPorts
        fun rule => insert rule c.blockedPorts := by
  rcases run_addBlockedPort_cases c port proto with
    ⟨⟨response, herror⟩, val, hrun, -⟩ | ⟨rule, m, hrule, -, body, h⟩
  · rw [hrun, herror]
    rfl
  · rw [hrule]
    exact congrArg (fun c => c.blockedPorts) h.core

/-- So does a request to withdraw one. -/
theorem blockedPorts_delBlockedPort (c : FirewallApp) (port proto : String) :
    ((delBlockedPort port proto).run c).state.blockedPorts =
      (portRule port proto).toOption.elim c.blockedPorts fun rule => c.blockedPorts.erase rule := by
  unfold delBlockedPort
  cases portRule port proto <;> rfl

/-- Only the requests about addresses change which are blocked. -/
theorem blockedIps_handle (hc : c.Keyed) {ev : Event} (hev : ¬ ev.RulesOnIp) :
    (c.handle compile ev).1.blockedIps = c.blockedIps := by
  obtain ⟨c', ms, hact, hcore, -⟩ := acted_handle compile hc ev
  rw [show (c.handle compile ev).1.blockedIps = c'.blockedIps from
    congrArg (fun c => c.blockedIps) hcore]
  cases hact with
  | handshake | unheard | ignored | expired => rfl
  | rejected | allowed => simp
  | served req val c' msgs hval hserved =>
      cases hserved with
      | ipBlocked => exact absurd ⟨_, Or.inl rfl⟩ hev
      | ipUnblocked => exact absurd ⟨_, Or.inr rfl⟩ hev
      | refused | portBlocked | portUnblocked | rateLimit | patternAdded | patternRemoved => rfl

/-- Only the requests about ports change which are blocked. -/
theorem blockedPorts_handle (hc : c.Keyed) {ev : Event} (hev : ¬ ev.RulesOnPort) :
    (c.handle compile ev).1.blockedPorts = c.blockedPorts := by
  obtain ⟨c', ms, hact, hcore, -⟩ := acted_handle compile hc ev
  rw [show (c.handle compile ev).1.blockedPorts = c'.blockedPorts from
    congrArg (fun c => c.blockedPorts) hcore]
  cases hact with
  | handshake | unheard | ignored | expired => rfl
  | rejected | allowed => simp
  | served req val c' msgs hval hserved =>
      cases hserved with
      | portBlocked => exact absurd ⟨_, _, Or.inl rfl⟩ hev
      | portUnblocked => exact absurd ⟨_, _, Or.inr rfl⟩ hev
      | refused | ipBlocked | ipUnblocked | rateLimit | patternAdded | patternRemoved => rfl

/-- Other events do not rule on an address. -/
theorem rulingOn?_eq_none {ev : Event} (hev : ¬ ev.RulesOnIp) (a : IPv4Address) :
    ev.rulingOn? a = none := by
  cases ev with
  | handshake | packetIn | expire => rfl
  | rest req =>
      cases req with
      | addBlockedIp => exact absurd ⟨_, Or.inl rfl⟩ hev
      | delBlockedIp => exact absurd ⟨_, Or.inr rfl⟩ hev
      | addBlockedPort | delBlockedPort | setRateLimit | addDpiPattern | delDpiPattern => rfl

/-- Nor on a port. -/
theorem rulingOnPort?_eq_none {ev : Event} (hev : ¬ ev.RulesOnPort) (rule : ℕ × ℕ) :
    ev.rulingOnPort? rule = none := by
  cases ev with
  | handshake | packetIn | expire => rfl
  | rest req =>
      cases req with
      | addBlockedPort => exact absurd ⟨_, _, Or.inl rfl⟩ hev
      | delBlockedPort => exact absurd ⟨_, _, Or.inr rfl⟩ hev
      | addBlockedIp | delBlockedIp | setRateLimit | addDpiPattern | delDpiPattern => rfl

/-- Whether an address is blocked is written by the rulings on it. -/
theorem mem_blockedIps_handle (hc : c.Keyed) (ev : Event) (a : IPv4Address) :
    decide (a.text ∈ (c.handle compile ev).1.blockedIps) =
      (ev.rulingOn? a).getD (decide (a.text ∈ c.blockedIps)) := by
  have hok := a.ipv4AddressOk_text
  by_cases hev : ev.RulesOnIp
  swap
  · rw [blockedIps_handle hc hev, rulingOn?_eq_none hev, Option.getD_none]
  obtain ⟨ip, rfl | rfl⟩ := hev
  · simp only [FirewallApp.handle, serve, blockedIps_addBlockedIp, Event.rulingOn?]
    by_cases hip : ip = a.text
    · subst hip
      simp [hok]
    · have hne : a.text ≠ ip := fun h => hip h.symm
      by_cases h : ipv4AddressOk ip = true <;> simp [hip, h, hne]
  · simp only [FirewallApp.handle, serve, blockedIps_delBlockedIp, Event.rulingOn?]
    by_cases hip : ip = a.text
    · subst hip
      simp [hok]
    · have hne : a.text ≠ ip := fun h => hip h.symm
      by_cases h : ipv4AddressOk ip = true <;> simp [hip, h, hne]

/-- Whether a port is blocked is written by the rulings on it. -/
theorem mem_blockedPorts_handle (hc : c.Keyed) (ev : Event) (rule : ℕ × ℕ) :
    decide (rule ∈ (c.handle compile ev).1.blockedPorts) =
      (ev.rulingOnPort? rule).getD (decide (rule ∈ c.blockedPorts)) := by
  by_cases hev : ev.RulesOnPort
  swap
  · rw [blockedPorts_handle hc hev, rulingOnPort?_eq_none hev, Option.getD_none]
  obtain ⟨port, proto, rfl | rfl⟩ := hev
  · simp only [FirewallApp.handle, serve, blockedPorts_addBlockedPort, Event.rulingOnPort?]
    cases (portRule port proto).toOption with
    | none => exact decide_eq_decide.mpr Iff.rfl
    | some rule' =>
        by_cases h : rule' = rule
        · simp [h]
        · simp [h, Ne.symm h]
  · simp only [FirewallApp.handle, serve, blockedPorts_delBlockedPort, Event.rulingOnPort?]
    cases (portRule port proto).toOption with
    | none => exact decide_eq_decide.mpr Iff.rfl
    | some rule' =>
        by_cases h : rule' = rule
        · simp [h]
        · simp [h, Ne.symm h]

/-! The same, whatever the parser makes of frames. -/

section Dissected

variable (dissect : Dissector) (hc : c.Keyed)

include hc

/-- Other events leave the blocked addresses alone, whatever a frame is dissected to. -/
theorem blockedIps_dissected {ev : Event} (hev : ¬ ev.RulesOnIp) :
    (dissect.handle compile c ev).1.blockedIps = c.blockedIps := by
  cases ev with
  | handshake | rest | expire => exact blockedIps_handle hc hev
  | packetIn d now msg =>
      exact congrArg (fun wiring => wiring.2.2.1) (wiring_packetIn dissect compile c d now msg)

/-- And the blocked ports. -/
theorem blockedPorts_dissected {ev : Event} (hev : ¬ ev.RulesOnPort) :
    (dissect.handle compile c ev).1.blockedPorts = c.blockedPorts := by
  cases ev with
  | handshake | rest | expire => exact blockedPorts_handle hc hev
  | packetIn d now msg =>
      exact congrArg (fun wiring => wiring.2.2.2.1) (wiring_packetIn dissect compile c d now msg)

/-- Whether an address is blocked is written by the rulings on it. -/
theorem mem_blockedIps_dissected (ev : Event) (a : IPv4Address) :
    decide (a.text ∈ (dissect.handle compile c ev).1.blockedIps) =
      (ev.rulingOn? a).getD (decide (a.text ∈ c.blockedIps)) := by
  by_cases hev : ev.RulesOnIp
  · obtain ⟨ip, rfl | rfl⟩ := hev <;> exact mem_blockedIps_handle hc _ a
  · rw [blockedIps_dissected dissect hc hev, rulingOn?_eq_none hev, Option.getD_none]

/-- Whether a port is blocked is written by the rulings on it. -/
theorem mem_blockedPorts_dissected (ev : Event) (rule : ℕ × ℕ) :
    decide (rule ∈ (dissect.handle compile c ev).1.blockedPorts) =
      (ev.rulingOnPort? rule).getD (decide (rule ∈ c.blockedPorts)) := by
  by_cases hev : ev.RulesOnPort
  · obtain ⟨port, proto, rfl | rfl⟩ := hev <;> exact mem_blockedPorts_handle hc _ rule
  · rw [blockedPorts_dissected dissect hc hev, rulingOnPort?_eq_none hev, Option.getD_none]

end Dissected

end Handle

/-! ## Bindings -/

/-- The ARP header of a frame that is looked at. -/
def PacketIn.arp? (msg : PacketIn) : Option Arp :=
  msg.ethernet?.bind fun _ => (Packet.parse msg.data).arp

/-- The event is a handshake. -/
def Event.isHandshake : Event → Bool
  | .handshake _ => true
  | _ => false

/-- The event is the handshake of the switch. -/
def Event.announces (d : ℕ) : Event → Bool
  | .handshake d' => d' = d
  | _ => false

/-- The station that an ARP frame names as that of the address, if its switch is connected. -/
def Event.claims? (connected : ℕ → Bool) (ip : String) : Event → Option String
  | .packetIn d _ msg =>
    if connected d then (msg.arp?.filter fun arpPkt => arpPkt.srcIp = ip).map Arp.srcMac else none
  | _ => none

/-- The switch has shaken hands. -/
def Announced (evs : List Event) (d : ℕ) : Bool := evs.any (Event.announces d)

/-- The station that was first claimed to have the address since the last handshake. -/
def firstClaim (evs : List Event) (ip : String) : Option String :=
  ((evs.rtakeWhile fun ev => !ev.isHandshake).filterMap
    (Event.claims? (Announced (evs.rdropWhile fun ev => !ev.isHandshake)) ip)).head?

/-- The ARP header that is checked is the one of a frame of that type. -/
theorem PacketIn.arp?_eq_some {msg : PacketIn} {arpPkt : Arp} :
    msg.arp? = some arpPkt ↔ ∃ ethPkt, msg.ethernet? = some ethPkt ∧
      ethPkt.ethertype = ETH_TYPE_ARP ∧ (Packet.parse msg.data).arp = some arpPkt := by
  simp only [PacketIn.arp?, Option.bind_eq_some_iff]
  refine exists_congr fun ethPkt => and_congr_right fun heth => ?_
  refine ⟨fun harp => ⟨?_, harp⟩, fun h => h.2⟩
  rcases Packet.parse_fields msg.data with ⟨-, hnone⟩ | ⟨eth, hparse, ⟨-, hnone⟩ | ⟨htype, -⟩⟩
  · exact absurd (hnone.symm.trans harp) (by simp)
  · exact absurd (hnone.symm.trans harp) (by simp)
  · obtain rfl : eth = ethPkt := by simpa [ethernet_of_ethernet? heth] using hparse.symm
    exact htype

/-- What the filtering area leaves of the bindings. -/
theorem arpTable_filterOf {c : FirewallApp} {msg : PacketIn} {ethPkt : Ethernet}
    (heth : msg.ethernet? = some ethPkt) (datapath : Datapath) (now : ℚ) (ip : String) :
    (c.filterOf datapath now msg ethPkt).state.arpTable.get? ip = (c.arpTable.get? ip).or
      ((msg.arp?.filter fun arpPkt => arpPkt.srcIp = ip).map Arp.srcMac) := by
  have hf := filtered_filterOf c datapath now msg ethPkt
  cases harp : msg.arp? with
  | none =>
      -- without an ARP header no way through the filtering area comes to the bindings
      have hkeep : (c.filterOf datapath now msg ethPkt).state.arpTable = c.arpTable := by
        generalize c.filterOf datapath now msg ethPkt = r at hf
        cases hf with
        | ignored | noHeader => rfl
        | source ipPkt | noL4 ipPkt | datagram ipPkt | segment ipPkt | other ipPkt =>
            obtain ⟨tracker, htracker⟩ := clocked_eq c now ipPkt.src
            rw [htracker]
        | inspected ipPkt tcpPkt _ _ _ _ _ _ r hr =>
            obtain ⟨state, out, hrun, hcore, -⟩ := checkDpi_spec
              ⟨ipPkt, tcpPkt, extractTcpPayload msg.data ipPkt tcpPkt⟩ (c.clocked now ipPkt.src)
            obtain ⟨tracker, htracker⟩ := clocked_eq c now ipPkt.src
            rw [← hr, hrun]
            refine (congrArg (fun c => c.arpTable) hcore).trans ?_
            rw [htracker]
            rfl
        | arp arpPkt htype hparse =>
            exact absurd (harp.symm.trans (PacketIn.arp?_eq_some.mpr ⟨ethPkt, heth, htype, hparse⟩))
              (by simp)
      simp [hkeep]
  | some arpPkt =>
      obtain ⟨ethPkt', heth', htype, hparse⟩ := PacketIn.arp?_eq_some.mp harp
      obtain rfl : ethPkt = ethPkt' := by simpa [heth] using heth'
      rcases hf.of_arp htype with ⟨hnone, -⟩ | ⟨arpPkt', hparse', hr⟩
      · exact absurd (hnone.symm.trans hparse) (by simp)
      obtain rfl : arpPkt' = arpPkt := by simpa [hparse] using hparse'.symm
      have hclaim : ((some arpPkt').filter fun arpPkt => arpPkt.srcIp = ip).map Arp.srcMac =
          if ip = arpPkt'.srcIp then some arpPkt'.srcMac else none := by
        by_cases hip : ip = arpPkt'.srcIp
        · simp [hip]
        · simp [Option.filter_some, hip, Ne.symm hip]
      rw [hr, hclaim]
      -- a first claim is bound, any later one changes nothing
      cases hget : c.arpTable.get? arpPkt'.srcIp with
      | none =>
          by_cases hip : ip = arpPkt'.srcIp
          · subst hip
            simp [hget]
          · simp [Dict.get?_set, hip]
      | some mac =>
          have hkeep : c.arpTable.get? ip = (c.arpTable.get? ip).or
              (if ip = arpPkt'.srcIp then some arpPkt'.srcMac else none) := by
            by_cases hip : ip = arpPkt'.srcIp
            · subst hip
              simp [hget]
            · simp [hip]
          by_cases hmac : mac = arpPkt'.srcMac
          · simpa [hmac] using hkeep
          · simpa [hmac] using hkeep

/-- An ARP frame that is looked at gets a verdict. -/
theorem isSome_verdict?_of_arp? {c : FirewallApp} {datapath : Datapath} {now : ℚ} {msg : PacketIn}
    {arpPkt : Arp} (h : msg.arp? = some arpPkt) :
    ∃ result, c.verdict? datapath now msg = some result := by
  obtain ⟨ethPkt, heth, htype, hparse⟩ := PacketIn.arp?_eq_some.mp h
  rcases (filtered_filterOf c datapath now msg ethPkt).of_arp htype with
    ⟨hnone, -⟩ | ⟨arpPkt', -, hr⟩
  · exact absurd (hnone.symm.trans hparse) (by simp)
  · simp only [verdict?_iff heth, hr]
    cases c.arpTable.get? arpPkt'.srcIp with
    | none => exact ⟨_, rfl⟩
    | some mac => by_cases hmac : mac = arpPkt'.srcMac <;> simp [hmac]

/-- A handshake clears the bindings; between handshakes the first claim of an address counts. -/
theorem arpTable_handle {compile : ReCompile} {c : FirewallApp} (hc : c.Keyed) (ev : Event)
    (ip : String) :
    (c.handle compile ev).1.arpTable.get? ip = if ev.isHandshake then none else
      (c.arpTable.get? ip).or (ev.claims? (fun d => d ∈ c.datapaths.keys) ip) := by
  obtain ⟨c', ms, hact, hcore, -⟩ := acted_handle compile hc ev
  rw [show (c.handle compile ev).1.arpTable = c'.arpTable from
    congrArg (fun c => c.arpTable) hcore]
  cases hact with
  | handshake => simp [Event.isHandshake]
  | expired => simp [Event.isHandshake, Event.claims?]
  | unheard d now msg hd => simp [Event.isHandshake, Event.claims?, hd]
  | ignored d now msg tracker hd hv =>
      -- every ARP frame gets a verdict, so an ignored frame claims nothing
      have harp : msg.arp? = none := by
        rw [Option.eq_none_iff_forall_ne_some]
        intro arpPkt h
        obtain ⟨result, hv'⟩ : ∃ result, c.verdict? ⟨d⟩ now msg = some result :=
          isSome_verdict?_of_arp? h
        exact absurd (hv.symm.trans hv') (by simp)
      simp [Event.isHandshake, Event.claims?, hd, harp]
  | rejected d now msg result ethPkt hd hv hrej heth =>
      simpa [FirewallApp.afterLearning, Event.isHandshake, Event.claims?, hd] using
        arpTable_filterOf heth ⟨d⟩ now ip
  | allowed d now msg ethPkt hd hv heth =>
      rw [arpTable_recordFor]
      simpa [FirewallApp.afterLearning, Event.isHandshake, Event.claims?, hd] using
        arpTable_filterOf heth ⟨d⟩ now ip
  | served req val c' msgs hval hserved =>
      have hkeep : c'.arpTable = c.arpTable := by cases hserved <;> rfl
      simp [Event.isHandshake, Event.claims?, hkeep]

/-! ## Over whole runs -/

namespace Dissector

variable (dissect : Dissector) (compile : ReCompile) (dpi : DPIEngine) (evs : List Event)

/-- Datapaths are filed under their own numbers in every reachable state. -/
theorem keyed_run : (dissect.run compile dpi evs).ctl.Keyed :=
  runFrom_invariant (fun w : World => w.ctl.Keyed) (keyed_dissected dissect compile)
    (keyed_init dpi) evs

/-- The switches that are connected are those that have shaken hands. -/
theorem connected_run (d : ℕ) :
    (dissect.run compile dpi evs).Connected d ↔ Announced evs d = true := by
  induction evs using List.reverseRec with
  | nil =>
      simp [run, World.init, World.Connected, FirewallApp.init, Announced, Dict.keys, Dict.empty]
  | append_singleton evs ev ih =>
      have hk := dissect.keyed_run compile dpi evs
      have hstep : dissect.run compile dpi (evs ++ [ev]) =
        dissect.step compile (dissect.run compile dpi evs) ev := runFrom_concat ..
      rw [hstep, Announced, List.any_append, Bool.or_eq_true, ← Announced, ← ih,
        World.Connected, step]
      rcases datapaths_handle dissect compile hk ev with ⟨d', rfl, hd⟩ | ⟨hne, hd⟩
      · rw [hd, Dict.mem_keys_set, Or.comm]
        simp [Event.announces, World.Connected, eq_comm]
      · have hnot : ev.announces d = false := by
          cases ev with
          | handshake d' => exact absurd rfl (hne d')
          | packetIn | rest | expire => rfl
        simp [World.Connected, hd, hnot]

/-- An address is blocked when the last ruling on it says so. -/
theorem mem_blockedIps_run (a : IPv4Address) :
    a.text ∈ (dissect.run compile dpi evs).ctl.blockedIps ↔ Blocks evs a = true := by
  have hread := read_eq_last _ (keyed_dissected dissect compile)
    (fun w => decide (a.text ∈ w.ctl.blockedIps)) (fun _ ev => ev.rulingOn? a)
    (fun w ev hw => mem_blockedIps_dissected dissect hw ev a) (s := World.init dpi)
    (keyed_init dpi) evs
  rw [← decide_eq_true_iff (p := a.text ∈ _), run, hread, writes_const, Blocks]
  simp [World.init, FirewallApp.init]

/-- A port is blocked when the last ruling on it says so. -/
theorem mem_blockedPorts_run (rule : ℕ × ℕ) :
    rule ∈ (dissect.run compile dpi evs).ctl.blockedPorts ↔ BlocksPort evs rule = true := by
  have hread := read_eq_last _ (keyed_dissected dissect compile)
    (fun w => decide (rule ∈ w.ctl.blockedPorts)) (fun _ ev => ev.rulingOnPort? rule)
    (fun w ev hw => mem_blockedPorts_dissected dissect hw ev rule) (s := World.init dpi)
    (keyed_init dpi) evs
  rw [← decide_eq_true_iff (p := rule ∈ _), run, hread, writes_const, BlocksPort]
  simp [World.init, FirewallApp.init]

end Dissector

namespace World

variable (compile : ReCompile) (dpi : DPIEngine) (evs : List Event)

/-- The last event is a step of the system. -/
theorem run_concat (ev : Event) :
    run compile dpi (evs ++ [ev]) = (run compile dpi evs).step compile ev :=
  runFrom_concat ..

/-- The switches that are connected are those that have shaken hands. -/
theorem connected_run (d : ℕ) : (run compile dpi evs).Connected d ↔ Announced evs d = true := by
  rw [← run_plain]
  exact Dissector.plain.connected_run compile dpi evs d

/-- Datapaths stay filed under their own numbers. -/
theorem keyed_of_step (w : World) (ev : Event) (hw : w.ctl.Keyed) :
    (w.step compile ev).ctl.Keyed :=
  keyed_step hw ev

/-- Without a handshake the connections stay as they are. -/
theorem datapaths_of_no_handshake {w : World} (hw : w.ctl.Keyed) {es : List Event}
    (hes : ∀ ev ∈ es, ev.isHandshake = false) :
    Along (step compile) (fun w' _ => w'.ctl.datapaths = w.ctl.datapaths) w es := by
  have halong := along_of_forall_mem (step compile) hes w
  refine (halong.strengthen
    (fun w' => w'.ctl.Keyed ∧ w'.ctl.datapaths = w.ctl.datapaths) ?_ ⟨hw, rfl⟩).imp
    fun w' ev h => h.1.2
  rintro w' ev ⟨hw', hd⟩ hev
  refine ⟨keyed_step hw' ev, ?_⟩
  rcases datapaths_step compile hw' ev with ⟨d, rfl, -⟩ | ⟨-, hd'⟩
  · exact absurd hev (by simp [Event.isHandshake])
  · exact hd'.trans hd

/-- A binding is the first claim of its address since the last handshake. -/
theorem arpTable_run (ip : String) :
    (run compile dpi evs).ctl.arpTable.get? ip = firstClaim evs ip := by
  have hread := read_eq_first _ (keyed_of_step compile) (fun w => w.ctl.arpTable.get? ip)
    (fun w ev => ev.claims? (fun d => d ∈ w.ctl.datapaths.keys) ip) Event.isHandshake
    (fun w ev hw => arpTable_handle hw ev ip) (s := init dpi) (keyed_init dpi) rfl evs
  rw [run, hread, firstClaim]
  refine congrArg List.head? (writes_eq_filterMap ?_)
  -- since the last handshake, the switches that are connected are those of the history before
  have hk := (sound_run compile dpi (evs.rdropWhile fun ev => !ev.isHandshake)).keyed
  refine (datapaths_of_no_handshake compile hk fun ev hev => ?_).imp fun w ev hd => ?_
  · simpa using List.mem_rtakeWhile_imp hev
  · congr 1
    funext d
    rw [hd, Bool.eq_iff_iff, decide_eq_true_iff]
    exact connected_run compile dpi _ d

/-! ### Sightings -/

/-- The port an event shows the station on: it is a packet-in that gets a verdict. -/
def sighting? (d : ℕ) (mac : String) (w : World) (ev : Event) : Option ℕ :=
  match ev with
  | .packetIn d' _ msg =>
    if d' = d ∧ (w.ctl.verdictOf? ev).isSome ∧ msg.ethernet?.map Ethernet.src = some mac then
      some msg.inPort.no
    else none
  | _ => none

/-- A sighting is a packet-in with a verdict, from the station, at the port it came in by. -/
theorem sighting?_eq_some {d : ℕ} {mac : String} {w : World} {ev : Event} {port : ℕ} :
    sighting? d mac w ev = some port ↔
      ∃ inPort, w.ctl.Locates ev d mac inPort ∧ inPort.no = port := by
  cases ev with
  | handshake | rest | expire => simp [sighting?, FirewallApp.Locates]
  | packetIn d' now msg =>
      simp only [sighting?, Option.ite_none_right_eq_some, Option.some.injEq,
        Option.map_eq_some_iff]
      constructor
      · rintro ⟨⟨rfl, hv, ethPkt, heth, rfl⟩, rfl⟩
        exact ⟨msg.inPort, ⟨now, msg, ethPkt, rfl, hv, heth, rfl, rfl⟩, rfl⟩
      · rintro ⟨inPort, ⟨now', msg', ethPkt, hev, hv, heth, rfl, rfl⟩, rfl⟩
        obtain ⟨rfl, -, rfl⟩ := Event.packetIn.inj hev
        exact ⟨⟨rfl, hv, ethPkt, heth, rfl⟩, rfl⟩

/-- On its switch, a sighting of a station writes its port. -/
theorem portsOf_handle {w : World} (hw : w.ctl.Keyed) (ev : Event) (d : ℕ) (mac : String) :
    ((w.step compile ev).ctl.portsOf d).get? mac =
      (sighting? d mac w ev).or ((w.ctl.portsOf d).get? mac) := by
  show ((w.ctl.handle compile ev).1.portsOf d).get? mac = _
  -- an event locates one station at most, and sets no other port
  by_cases h : ∃ mac' inPort, w.ctl.Locates ev d mac' inPort
  · obtain ⟨mac', inPort, hloc⟩ := h
    rw [portsOf_of_locates hw hloc, Dict.get?_set]
    by_cases hmac : mac = mac'
    · subst hmac
      rw [if_pos rfl, sighting?_eq_some.mpr ⟨inPort, hloc, rfl⟩, Option.some_or]
    · have hnone : sighting? d mac w ev = none := by
        rw [Option.eq_none_iff_forall_ne_some]
        intro port hport
        obtain ⟨inPort', hloc', -⟩ := sighting?_eq_some.mp hport
        exact hmac (hloc'.unique hloc).2.1
      rw [if_neg hmac, hnone, Option.none_or]
  · have hnone : sighting? d mac w ev = none := by
      rw [Option.eq_none_iff_forall_ne_some]
      intro port hport
      obtain ⟨inPort, hloc, -⟩ := sighting?_eq_some.mp hport
      exact h ⟨mac, inPort, hloc⟩
    rw [portsOf_of_not_locates hw fun mac' inPort hloc => h ⟨mac', inPort, hloc⟩, hnone,
      Option.none_or]

/-- The port of the switch on which the station was last seen. -/
def lastSighting (d : ℕ) (mac : String) : Option ℕ :=
  (writes (step compile) (sighting? d mac) (init dpi) evs).getLast?

/-- The learned port of a station is the one it was last seen on. -/
theorem portsOf_run (d : ℕ) (mac : String) :
    ((run compile dpi evs).ctl.portsOf d).get? mac = lastSighting compile dpi evs d mac := by
  have hread := read?_eq_last _ (keyed_of_step compile) (fun w => (w.ctl.portsOf d).get? mac)
    (sighting? d mac) (fun w ev hw => portsOf_handle compile hw ev d mac) (s := init dpi)
    (keyed_init dpi) evs
  exact hread.trans Option.or_none

end World

end SdnFirewall
