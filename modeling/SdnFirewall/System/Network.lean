import Mathlib.Logic.Function.Basic
import SdnFirewall.System.World

/-!
# Messages in flight

The same controller and switches with the channels between them: a switch raises a packet-in when
its table sends a frame to the controller, the controller handles the packet-ins of a switch in
order, and a switch applies what it is sent in order, each at its own time. Once everything that is
pending has been applied, such a network is in a state of the system without channels.
-/

namespace SdnFirewall

open Common OpenFlow Python

/-- Something that happens in the network. -/
inductive NetEvent where
  | handshake (dpid : ℕ)
  | rest (req : Request)
  /-- A frame comes in at a switch. -/
  | arrive (dpid : ℕ) (msg : PacketIn)
  /-- The controller handles the oldest packet-in of a switch. -/
  | handle (dpid : ℕ) (now : ℚ)
  /-- A switch applies the oldest message it has been sent. -/
  | apply (dpid : ℕ)
  | expire (dpid : ℕ) (e : FlowEntry)

/-- The controller, the flow table of each switch, and what is in flight between them. -/
structure Network where
  ctl : FirewallApp
  tables : ℕ → FlowTable
  /-- The packet-ins a switch has raised, oldest first. -/
  packetIns : ℕ → List PacketIn
  /-- The messages a switch has been sent, oldest first. -/
  pending : ℕ → List OFPMsg

namespace Network

/-- Empty state, empty tables, nothing in flight. -/
def init (dpi : DPIEngine) : Network where
  ctl := .init dpi
  tables := fun _ => []
  packetIns := fun _ => []
  pending := fun _ => []

/-- The controller handles an event; what it sends is in flight. -/
def control (compile : ReCompile) (net : Network) (ev : Event) : Network :=
  { net with
    ctl := (net.ctl.handle compile ev).1
    pending := fun d => net.pending d ++ sentTo d (net.ctl.handle compile ev).2 }

/-- The event of the controller that happens in the network, if there is one. -/
def dispatched? (net : Network) : NetEvent → Option Event
  | .handshake d => some (.handshake d)
  | .rest req => some (.rest req)
  | .handle d now => (net.packetIns d).head?.map (.packetIn d now)
  | .arrive _ _ | .apply _ | .expire _ _ => none

/-- What happens on the side of the switches: how they classify the fields of a frame is not up to
the controller. -/
def receive (classify : PacketIn → FlowKey) (net : Network) : NetEvent → Network
  | .arrive d msg =>
    if (net.tables d).SendsToController (classify msg) then
      { net with packetIns := Function.update net.packetIns d (net.packetIns d ++ [msg]) }
    else net
  | .handle d _ => { net with packetIns := Function.update net.packetIns d (net.packetIns d).tail }
  | .apply d =>
    { net with
      tables := Function.update net.tables d ((net.tables d).applyAll (net.pending d).head?.toList)
      pending := Function.update net.pending d (net.pending d).tail }
  | .expire d e => { net with tables := Function.update net.tables d ((net.tables d).expire e) }
  | .handshake _ | .rest _ => net

/-- One event. -/
def step (compile : ReCompile) (classify : PacketIn → FlowKey) (net : Network) (ev : NetEvent) :
    Network :=
  match net.dispatched? ev with
  | some cev => (net.receive classify ev).control compile cev
  | none => net.receive classify ev

/-- The state a list of events leads to from the start. -/
def run (compile : ReCompile) (classify : PacketIn → FlowKey) (dpi : DPIEngine)
    (evs : List NetEvent) : Network :=
  runFrom (step compile classify) (init dpi) evs

/-! ## The settled network -/

/-- The state once every switch has applied what it was sent. -/
def settled (net : Network) : World where
  ctl := net.ctl
  tables := fun d => (net.tables d).applyAll (net.pending d)

@[simp] theorem ctl_settled (net : Network) : net.settled.ctl = net.ctl := rfl

@[simp] theorem ctl_receive (classify : PacketIn → FlowKey) (net : Network) (ev : NetEvent) :
    (net.receive classify ev).ctl = net.ctl := by
  cases ev with
  | arrive d msg =>
      simp only [receive]
      split <;> rfl
  | handshake | rest | handle | apply | expire => rfl

/-- What the controller does is one event of the settled network. -/
theorem settled_control (compile : ReCompile) (net : Network) {ev : Event}
    (hev : ∀ d e, ev ≠ .expire d e) :
    (net.control compile ev).settled = net.settled.step compile ev := by
  have htables : ∀ d, net.settled.expired ev d = net.settled.tables d := by
    intro d
    cases ev with
    | expire d' e => exact absurd rfl (hev d' e)
    | handshake | packetIn | rest => rfl
  simp only [settled, control, World.step, World.sends, World.mk.injEq, true_and]
  funext d
  rw [FlowTable.applyAll_append]
  exact congrArg (FlowTable.applyAll · _) (htables d).symm

/-- What the switches do by themselves is not seen in the settled network, timeouts apart. -/
theorem settled_receive (classify : PacketIn → FlowKey) (net : Network) {ev : NetEvent}
    (hev : ∀ d e, ev ≠ .expire d e) : (net.receive classify ev).settled = net.settled := by
  cases ev with
  | handshake | rest | handle => rfl
  | arrive d msg =>
      simp only [receive]
      split <;> rfl
  | expire d e => exact absurd rfl (hev d e)
  | apply d =>
      simp only [settled, receive, World.mk.injEq, true_and]
      funext d'
      by_cases hd : d' = d
      · subst hd
        simp only [Function.update_self, ← FlowTable.applyAll_append]
        cases net.pending d' <;> rfl
      · simp only [Function.update_of_ne hd]

/-- A timeout is one in the settled network, unless the entry is about to be installed again. -/
theorem settled_expire (compile : ReCompile) (classify : PacketIn → FlowKey) (net : Network)
    (d : ℕ) (e : FlowEntry) :
    (net.receive classify (.expire d e)).settled = net.settled ∨
      (net.receive classify (.expire d e)).settled = net.settled.step compile (.expire d e) := by
  have hsettled : (net.receive classify (.expire d e)).settled =
      { net.settled with tables := fun d' =>
          if d = d' then ((net.tables d').expire e).applyAll (net.pending d')
          else net.settled.tables d' } := by
    simp only [settled, receive, World.mk.injEq, true_and]
    funext d'
    by_cases hd : d = d'
    · subst hd
      rw [Function.update_self, if_pos rfl]
    · rw [Function.update_of_ne (Ne.symm hd), if_neg hd]
  rw [hsettled]
  -- an entry that a message in flight installs again has not expired in the settled network
  by_cases hagain : ∃ m ∈ net.pending d, m.installs? = some e
  · refine Or.inl (congrArg (World.mk net.ctl) (funext fun d' => ?_))
    split
    · rename_i hd
      subst hd
      rw [FlowTable.applyAll_expire, if_pos hagain]
    · rfl
  · refine Or.inr (congrArg (World.mk net.ctl) (funext fun d' => ?_))
    show _ = if d = d' then (net.settled.tables d').expire e else net.settled.tables d'
    split
    · rename_i hd
      subst hd
      rw [FlowTable.applyAll_expire, if_neg hagain]
      rfl
    · rfl

/-- Every event of the network is one of the settled network, or is not seen in it. -/
theorem settled_step (compile : ReCompile) (classify : PacketIn → FlowKey) (net : Network)
    (ev : NetEvent) :
    (net.step compile classify ev).settled = net.settled ∨
      ∃ wev, (net.step compile classify ev).settled = net.settled.step compile wev := by
  unfold step
  cases hcev : net.dispatched? ev with
  | some cev =>
      have hexpire : ∀ d e, ev ≠ .expire d e := by
        rintro d e rfl
        exact absurd hcev (by simp [dispatched?])
      refine Or.inr ⟨cev, ?_⟩
      rw [settled_control, settled_receive classify net hexpire]
      rintro d e rfl
      cases ev <;> simp [dispatched?] at hcev
  | none =>
      by_cases hexpire : ∃ d e, ev = .expire d e
      · obtain ⟨d, e, rfl⟩ := hexpire
        exact (settled_expire compile classify net d e).imp_right fun h => ⟨_, h⟩
      · exact Or.inl (settled_receive classify net fun d e h => hexpire ⟨d, e, h⟩)

/-- The network refines the system without channels: settled, it has gone through a run of it. -/
theorem exists_run_settled (compile : ReCompile) (classify : PacketIn → FlowKey)
    (dpi : DPIEngine) (evs : List NetEvent) :
    ∃ wevs, (run compile classify dpi evs).settled = World.run compile dpi wevs := by
  refine runFrom_invariant (fun net : Network => ∃ wevs, net.settled = World.run compile dpi wevs)
    ?_ ⟨[], rfl⟩ evs
  rintro net ev ⟨wevs, hwevs⟩
  rcases settled_step compile classify net ev with h | ⟨wev, h⟩
  · exact ⟨wevs, h.trans hwevs⟩
  · refine ⟨wevs ++ [wev], ?_⟩
    rw [h, hwevs, World.run, World.run, runFrom_concat]

end Network

end SdnFirewall
