import SdnFirewall.Common.Runs
import SdnFirewall.Controller.Verdict
import SdnFirewall.Rest.Wsgi

/-!
# Controller and switches

The controller together with the flow tables of all switches, driven by handshakes, packet-ins,
REST requests and timeouts. Every handler runs to its end, and what it sends to a switch is applied
in order before the next event. The packet-in of an event is arbitrary: it need not be one the
table would send now, so packet-ins that were queued earlier are covered.
-/

namespace SdnFirewall

open Common OpenFlow Python

/-- Something that happens to the system. -/
inductive Event where
  | handshake (dpid : ℕ)
  | packetIn (dpid : ℕ) (now : ℚ) (msg : PacketIn)
  | rest (req : Request)
  | expire (dpid : ℕ) (e : FlowEntry)

/-- The controller and the flow table of each switch. -/
structure World where
  ctl : FirewallApp
  tables : ℕ → FlowTable

/-- What the controller does with an event: the state it is left in and what it sends. Packet-ins
are dispatched only once the handshake of their switch is through; an exception ends a handler but
not the controller. -/
def FirewallApp.handle (compile : ReCompile) (c : FirewallApp) : Event → FirewallApp × List Effect
  | .handshake d =>
    let r := (switchHandshakeHandler ⟨d⟩).run c
    (r.state, r.out)
  | .packetIn d now msg =>
    if d ∈ c.datapaths.keys then
      let r := (packetInHandler ⟨d⟩ now msg).run c
      (r.state, r.out)
    else (c, [])
  | .rest req =>
    let r := (serve compile req).run c
    (r.state, r.out)
  | .expire _ _ => (c, [])

namespace World

/-- Empty state, empty tables. -/
def init (dpi : DPIEngine) : World where
  ctl := .init dpi
  tables := fun _ => []

/-- The table of a switch after a timeout. -/
def expired (w : World) (ev : Event) (d : ℕ) : FlowTable :=
  match ev with
  | .expire d' e => if d' = d then (w.tables d).expire e else w.tables d
  | _ => w.tables d

/-- The messages an event makes the controller send to a switch, in order. -/
def sends (compile : ReCompile) (w : World) (ev : Event) (d : ℕ) : List OFPMsg :=
  sentTo d (w.ctl.handle compile ev).2

/-- One event: the controller handles it, and the switches apply what it sent. -/
def step (compile : ReCompile) (w : World) (ev : Event) : World where
  ctl := (w.ctl.handle compile ev).1
  tables := fun d => (w.expired ev d).applyAll (w.sends compile ev d)

/-- The state a list of events leads to from the start. -/
def run (compile : ReCompile) (dpi : DPIEngine) (evs : List Event) : World :=
  runFrom (step compile) (init dpi) evs

/-- The switches whose handshake the controller has handled. -/
def Connected (w : World) (d : ℕ) : Prop := d ∈ w.ctl.datapaths.keys

end World

/-! ## Connections are filed under their own number -/

/-- The switch stored under a number has that number. -/
def FirewallApp.Keyed (c : FirewallApp) : Prop := ∀ kv ∈ c.datapaths.entries, kv.2.id = kv.1

/-- The numbers of the datapaths are the keys. -/
theorem FirewallApp.Keyed.ids {c : FirewallApp} (h : c.Keyed) :
    c.datapaths.values.map Datapath.id = c.datapaths.keys := by
  rw [Dict.values, Dict.keys, List.map_map]
  exact List.map_congr_left h

/-- Messages sent to one switch are all for that switch. -/
theorem sentTo_map (d d' : ℕ) (msgs : List OFPMsg) :
    sentTo d (msgs.map (Effect.sendMsg d')) = if d' = d then msgs else [] := by
  induction msgs with
  | nil => simp
  | cons m ms ih =>
      rw [List.map_cons, sentTo_cons_sendMsg, ih]
      by_cases h : d' = d <;> simp [h]

/-- Sending to each of several switches reaches each of them once. -/
theorem sentTo_flatMap {ds : List ℕ} (hnodup : ds.Nodup) (d : ℕ) (msgs : List OFPMsg) :
    sentTo d (ds.flatMap fun d' => msgs.map (Effect.sendMsg d')) =
      if d ∈ ds then msgs else [] := by
  induction ds with
  | nil => simp
  | cons d' ds ih =>
      rw [List.nodup_cons] at hnodup
      rw [List.flatMap_cons, sentTo_append, sentTo_map, ih hnodup.2]
      by_cases hd : d' = d
      · rw [if_pos hd, if_neg (hd ▸ hnodup.1), if_pos (hd ▸ List.mem_cons_self),
          List.append_nil]
      · rw [if_neg hd, List.nil_append]
        simp only [List.mem_cons, Ne.symm hd, false_or]

/-- A broadcast over the connected switches reaches each of them once. -/
theorem sentTo_datapaths {c : FirewallApp} (h : c.Keyed) (d : ℕ) (msgs : List OFPMsg) :
    sentTo d (c.datapaths.values.flatMap fun dp => msgs.map (Effect.sendMsg dp.id)) =
      if d ∈ c.datapaths.keys then msgs else [] := by
  rw [← sentTo_flatMap c.datapaths.keys_nodup, ← h.ids, List.flatMap_map]

/-- At first there are no datapaths. -/
theorem keyed_init (dpi : DPIEngine) : (FirewallApp.init dpi).Keyed := by
  intro kv hkv
  exact absurd hkv List.not_mem_nil

/-- It is a matter of the datapaths alone. -/
theorem keyed_of_datapaths {c c' : FirewallApp} (h : c'.datapaths = c.datapaths)
    (hk : c.Keyed) : c'.Keyed := by
  rw [FirewallApp.Keyed, h]
  exact hk

/-- A handshake files the switch under its own number. -/
theorem keyed_of_datapaths_set {c c' : FirewallApp} {d : ℕ}
    (h : c'.datapaths = c.datapaths.set d ⟨d⟩) (hk : c.Keyed) : c'.Keyed := by
  intro kv hkv
  rw [h, ← Dict.get?_eq_some_iff, Dict.get?_set] at hkv
  split at hkv
  · rename_i hkd
    have hdp : kv.2 = ⟨d⟩ := by simpa using hkv.symm
    rw [hdp, hkd]
  · exact hk kv (Dict.get?_eq_some_iff.mp hkv)

/-! ## What an event can do -/

/-- The entry that sends what nothing else matches to the controller. -/
def missMod : OFPFlowMod := addFlowMod 0 {} [toController] 0 0 none

/-- The entry that sends all IPv4 frames to the controller. -/
def catchAllMod : OFPFlowMod := addFlowMod 300 ipv4Match [toController] 0 0 none

/-- The ways the controller can act on an event: the state it is left in, up to counters and log,
and the messages each switch is sent. -/
inductive Acted (compile : ReCompile) (c : FirewallApp) :
    Event → FirewallApp → (ℕ → List OFPMsg) → Prop
  | handshake (d : ℕ) :
      Acted compile c (.handshake d)
        { c with datapaths := c.datapaths.set d ⟨d⟩, arpTable := .empty }
        (fun d' => if d' = d then [.flowMod missMod, .flowMod catchAllMod] else [])
  /-- A packet-in before the handshake is not dispatched. -/
  | unheard (d : ℕ) (now : ℚ) (msg : PacketIn) (hd : d ∉ c.datapaths.keys) :
      Acted compile c (.packetIn d now msg) c (fun _ => [])
  | ignored (d : ℕ) (now : ℚ) (msg : PacketIn) (tracker : Dict String (List ℚ))
      (hd : d ∈ c.datapaths.keys) (hv : c.verdict? ⟨d⟩ now msg = none) :
      Acted compile c (.packetIn d now msg) { c with rateTracker := tracker } (fun _ => [])
  | rejected (d : ℕ) (now : ℚ) (msg : PacketIn) (result : CheckResult) (ethPkt : Ethernet)
      (hd : d ∈ c.datapaths.keys) (hv : c.verdict? ⟨d⟩ now msg = some result)
      (hrej : result ≠ .allowed) (heth : msg.ethernet? = some ethPkt) :
      Acted compile c (.packetIn d now msg) (c.afterLearning ⟨d⟩ now msg ethPkt)
        (fun d' => sentTo d' (c.filterOf ⟨d⟩ now msg ethPkt).out)
  | allowed (d : ℕ) (now : ℚ) (msg : PacketIn) (ethPkt : Ethernet) (hd : d ∈ c.datapaths.keys)
      (hv : c.verdict? ⟨d⟩ now msg = some .allowed) (heth : msg.ethernet? = some ethPkt) :
      Acted compile c (.packetIn d now msg)
        ((c.afterLearning ⟨d⟩ now msg ethPkt).recordFor
          (trustTarget? (Packet.parse msg.data) ethPkt (c.routeOf d msg ethPkt)))
        (fun d' => if d' = d then
          (c.afterLearning ⟨d⟩ now msg ethPkt).forwardMsgs msg (Packet.parse msg.data) ethPkt
            (c.routeOf d msg ethPkt) else [])
  | served (req : Request) (val : Except Exc Response) (c' : FirewallApp) (msgs : List OFPMsg)
      (hval : ((serve compile req).run c).val = val) (h : Served compile c req val c' msgs) :
      Acted compile c (.rest req) c' (fun d => if d ∈ c.datapaths.keys then msgs else [])
  | expired (d : ℕ) (e : FlowEntry) : Acted compile c (.expire d e) c (fun _ => [])

/-- The controller acts on every event in one of the listed ways. -/
theorem acted_handle (compile : ReCompile) {c : FirewallApp} (hk : c.Keyed) (ev : Event) :
    ∃ c' ms, Acted compile c ev c' ms ∧ (c.handle compile ev).1.core = c'.core ∧
      ∀ d, sentTo d (c.handle compile ev).2 = ms d := by
  cases ev with
  | handshake d =>
      refine ⟨_, _, .handshake d, rfl, fun d' => ?_⟩
      simp only [FirewallApp.handle, run_switchHandshakeHandler, sentTo_cons_sendMsg, sentTo_nil,
        missMod, catchAllMod, eq_comm]
      split <;> rfl
  | packetIn d now msg =>
      -- a packet-in before the handshake is not dispatched
      by_cases hd : d ∈ c.datapaths.keys
      swap
      · refine ⟨_, _, .unheard d now msg hd, ?_, fun d' => ?_⟩
        · simp only [FirewallApp.handle, if_neg hd]
        · simp only [FirewallApp.handle, if_neg hd, sentTo_nil]
      simp only [FirewallApp.handle, if_pos hd]
      cases hv : c.verdict? ⟨d⟩ now msg with
      | none =>
          obtain ⟨hout, tracker, hstate⟩ := packetIn_of_no_verdict hv
          exact ⟨_, _, .ignored d now msg tracker hd hv, by rw [hstate], by simp [hout]⟩
      | some result =>
          by_cases hrej : result = .allowed
          · subst hrej
            obtain ⟨ethPkt, heth, hcore, hsent⟩ := packetIn_allowed hv
            exact ⟨_, _, .allowed d now msg ethPkt hd hv heth, hcore, hsent⟩
          -- a rejection adds nothing to what the checks have sent
          · obtain ⟨ethPkt, heth, hcore, out, hout, hquiet⟩ := packetIn_rejected hv hrej
            refine ⟨_, _, .rejected d now msg result ethPkt hd hv hrej heth, hcore, fun d' => ?_⟩
            rw [hout, sentTo_append, sentTo_eq_nil_of_broadcast hquiet, List.append_nil]
  | rest req =>
      obtain ⟨c', msgs, hserved, hcore, before, after, hout, hbefore, hafter⟩ :=
        serves_serve compile c req
      refine ⟨c', _, .served req _ c' msgs rfl hserved, hcore, fun d => ?_⟩
      simp only [FirewallApp.handle, hout, sentTo_append, sentTo_eq_nil_of_broadcast hbefore,
        sentTo_eq_nil_of_broadcast hafter, sentTo_datapaths hk, List.nil_append, List.append_nil]
  | expire d e => exact ⟨c, _, .expired d e, rfl, fun _ => rfl⟩

/-- An allowed packet-in is acted on in one way. -/
theorem Acted.of_allowed {compile : ReCompile} {c c' : FirewallApp} {d : ℕ} {now : ℚ}
    {msg : PacketIn} {ms : ℕ → List OFPMsg} (h : Acted compile c (.packetIn d now msg) c' ms)
    {ethPkt : Ethernet} (hd : d ∈ c.datapaths.keys) (hv : c.verdict? ⟨d⟩ now msg = some .allowed)
    (heth : msg.ethernet? = some ethPkt) :
    c' = (c.afterLearning ⟨d⟩ now msg ethPkt).recordFor
        (trustTarget? (Packet.parse msg.data) ethPkt (c.routeOf d msg ethPkt)) ∧
      ∀ d', ms d' = if d' = d then
        (c.afterLearning ⟨d⟩ now msg ethPkt).forwardMsgs msg (Packet.parse msg.data) ethPkt
          (c.routeOf d msg ethPkt) else [] := by
  cases h with
  | unheard _ _ _ hd' => exact absurd hd hd'
  | ignored _ _ _ _ _ hv' =>
      rw [hv] at hv'
      exact absurd hv' (by simp)
  | rejected _ _ _ _ _ _ hv' hrej =>
      rw [hv] at hv'
      exact absurd (Option.some.inj hv').symm hrej
  | allowed _ _ _ ethPkt' _ _ heth' =>
      obtain rfl : ethPkt' = ethPkt := by simpa [heth] using heth'.symm
      exact ⟨rfl, fun _ => rfl⟩

/-! ### The state around the filtering area -/

section AfterLearning

variable (c : FirewallApp) (datapath : Datapath) (now : ℚ) (msg : PacketIn) (ethPkt : Ethernet)

/-- Filtering changes no rule. -/
theorem rules_filterOf : (c.filterOf datapath now msg ethPkt).state.rules = c.rules :=
  (filtered_filterOf c datapath now msg ethPkt).rules_eq

@[simp] theorem datapaths_afterLearning :
    (c.afterLearning datapath now msg ethPkt).datapaths = c.datapaths := by
  have h := congrArg FirewallApp.datapaths (rules_filterOf c datapath now msg ethPkt)
  exact h

@[simp] theorem blockedIps_afterLearning :
    (c.afterLearning datapath now msg ethPkt).blockedIps = c.blockedIps := by
  have h := congrArg FirewallApp.blockedIps (rules_filterOf c datapath now msg ethPkt)
  exact h

@[simp] theorem blockedPorts_afterLearning :
    (c.afterLearning datapath now msg ethPkt).blockedPorts = c.blockedPorts := by
  have h := congrArg FirewallApp.blockedPorts (rules_filterOf c datapath now msg ethPkt)
  exact h

@[simp] theorem dpi_afterLearning :
    (c.afterLearning datapath now msg ethPkt).dpi = c.dpi := by
  have h := congrArg FirewallApp.dpi (rules_filterOf c datapath now msg ethPkt)
  exact h

end AfterLearning

section RecordFor

variable (c : FirewallApp) (target : Option (IPv4 × L4))

@[simp] theorem datapaths_recordFor : (c.recordFor target).datapaths = c.datapaths := by
  cases target <;> rfl

@[simp] theorem blockedIps_recordFor : (c.recordFor target).blockedIps = c.blockedIps := by
  cases target <;> rfl

@[simp] theorem blockedPorts_recordFor : (c.recordFor target).blockedPorts = c.blockedPorts := by
  cases target <;> rfl

@[simp] theorem arpTable_recordFor : (c.recordFor target).arpTable = c.arpTable := by
  cases target <;> rfl

@[simp] theorem dpi_recordFor : (c.recordFor target).dpi = c.dpi := by
  cases target <;> rfl

end RecordFor

end SdnFirewall
