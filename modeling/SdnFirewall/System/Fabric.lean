import SdnFirewall.System.Records

/-!
# Frames on their way

Several switches with cables between them. A frame enters the network once and comes in at one
switch after another; wherever it comes in, it is forwarded by the table or sent to the controller,
whose answer lets it go on. A frame is named by its number among those that have entered, so the
packet-ins of one frame can be told from those of two equal ones.
-/

namespace SdnFirewall

open Common OpenFlow Python

/-- A cable, from a port of a switch to a port of another. -/
structure Cable where
  fromDpid : ℕ
  fromPort : ℕ
  toDpid : ℕ
  toPort : ℕ

/-- A frame that has come in at a port of a switch. -/
structure FrameAt where
  frame : ℕ
  dpid : ℕ
  inPort : ℕ
deriving DecidableEq

/-- Where a frame comes in next when it is sent out of some ports. Flooding means every port, and
no frame leaves by the port it came in by. -/
def FrameAt.next (cables : List Cable) (a : FrameAt) (ports : List ℕ) : List FrameAt :=
  cables.filterMap fun cable =>
    if cable.fromDpid = a.dpid ∧ cable.fromPort ≠ a.inPort ∧
        (cable.fromPort ∈ ports ∨ OFPP_FLOOD ∈ ports) then
      some ⟨a.frame, cable.toDpid, cable.toPort⟩
    else none

/-- Something that happens to switches with cables between them. -/
inductive FabricEvent where
  /-- A host sends a frame into the network. -/
  | enter (dpid inPort : ℕ) (data : Bytes)
  /-- An entry of the switch forwards a frame that has come in. -/
  | forward (a : FrameAt) (e : FlowEntry)
  /-- The controller handles the packet-in of a frame that has come in. -/
  | handle (a : FrameAt) (now : ℚ) (msg : PacketIn)
  | handshake (dpid : ℕ)
  | rest (req : Request)
  | expire (dpid : ℕ) (e : FlowEntry)

/-- The controller and its switches, the frames that have entered, oldest first, and where they have
come in. `counted` and `fed` tell, for the present record of each flow, the frames it has counted
and the frames whose payload it has buffered. -/
structure Fabric where
  world : World
  entered : List Bytes
  arrivals : List FrameAt
  counted : TrustKey → List ℕ
  fed : TrustKey → Side → List ℕ

/-- The buffer an event appends payload to. -/
def FirewallApp.feeds? (c : FirewallApp) (ev : Event) : Option (TrustKey × Side) := do
  let call ← c.dpiCall? ev
  if call.payload ≠ [] ∧ (c.entryOf call.key).blocked = false ∧
      ((c.entryOf call.key).buf call.side).length < MAX_BUFFER_BYTES then
    some (call.key, call.side)
  else none

/-- The event adds to the count of the flow. -/
def FirewallApp.AddsTo (c : FirewallApp) (ev : Event) (k : TrustKey) : Prop :=
  c.Counts ev k ∧ (c.entryOf k).installed = false

instance (c : FirewallApp) (ev : Event) (k : TrustKey) : Decidable (c.AddsTo ev k) :=
  inferInstanceAs (Decidable (_ ∧ _))

namespace Fabric

/-- Empty state, empty tables, no frames. -/
def init (dpi : DPIEngine) : Fabric where
  world := .init dpi
  entered := []
  arrivals := []
  counted := fun _ => []
  fed := fun _ _ => []

/-- An event of the controller and its switches, about a frame or about none. -/
def control (compile : ReCompile) (f : Fabric) (frame : Option ℕ) (ev : Event) : Fabric :=
  let world' := f.world.step compile ev
  { f with
    world := world'
    counted := fun k =>
      if world'.ctl.trustTable.get? k = none then []
      else if f.world.ctl.AddsTo ev k then f.counted k ++ frame.toList
      else f.counted k
    fed := fun k side =>
      if world'.ctl.trustTable.get? k = none then []
      else if f.world.ctl.feeds? ev = some (k, side) then f.fed k side ++ frame.toList
      else f.fed k side }

/-- The frame has come in where the packet-in says, and the packet-in carries it. -/
def Raises (f : Fabric) (a : FrameAt) (msg : PacketIn) : Prop :=
  a ∈ f.arrivals ∧ a.inPort = msg.inPort.no ∧ f.entered[a.frame]? = some msg.data

instance (f : Fabric) (a : FrameAt) (msg : PacketIn) : Decidable (f.Raises a msg) :=
  inferInstanceAs (Decidable (_ ∧ _ ∧ _))

/-- One event. -/
def step (compile : ReCompile) (cables : List Cable) (f : Fabric) : FabricEvent → Fabric
  | .enter d inPort data =>
    { f with
      entered := f.entered ++ [data]
      arrivals := f.arrivals ++ [⟨f.entered.length, d, inPort⟩] }
  | .forward a e =>
    if a ∈ f.arrivals ∧ e ∈ f.world.tables a.dpid then
      { f with
        arrivals := f.arrivals.erase a ++ a.next cables (e.actions.map OFPActionOutput.port) }
    else f
  | .handle a now msg =>
    if f.Raises a msg then
      { f.control compile (some a.frame) (.packetIn a.dpid now msg) with
        arrivals := f.arrivals.erase a ++ a.next cables
          ((f.world.sends compile (.packetIn a.dpid now msg) a.dpid).flatMap
            OFPMsg.framePorts) }
    else f
  | .handshake d => f.control compile none (.handshake d)
  | .rest req => f.control compile none (.rest req)
  | .expire d e => f.control compile none (.expire d e)

/-- The state a list of events leads to from the start. -/
def run (compile : ReCompile) (cables : List Cable) (dpi : DPIEngine) (fes : List FabricEvent) :
    Fabric :=
  runFrom (step compile cables) (init dpi) fes

/-- Without its frames, the network is the controller with its switches. -/
theorem world_step (compile : ReCompile) (cables : List Cable) (f : Fabric) (fe : FabricEvent) :
    (f.step compile cables fe).world = f.world ∨
      ∃ ev, (f.step compile cables fe).world = f.world.step compile ev := by
  cases fe with
  | enter => exact Or.inl rfl
  | forward a e =>
      refine Or.inl ?_
      unfold step
      dsimp only
      split <;> rfl
  | handle a now msg =>
      by_cases h : f.Raises a msg
      · exact Or.inr ⟨.packetIn a.dpid now msg, by rw [step, if_pos h]; rfl⟩
      · exact Or.inl (by rw [step, if_neg h])
  | handshake d => exact Or.inr ⟨.handshake d, rfl⟩
  | rest req => exact Or.inr ⟨.rest req, rfl⟩
  | expire d e => exact Or.inr ⟨.expire d e, rfl⟩

/-- Whatever the frames do, the controller and its switches go through a run of their own. -/
theorem exists_run_world (compile : ReCompile) (cables : List Cable) (dpi : DPIEngine)
    (fes : List FabricEvent) :
    ∃ evs, (run compile cables dpi fes).world = World.run compile dpi evs := by
  refine runFrom_invariant (fun f : Fabric => ∃ evs, f.world = World.run compile dpi evs) ?_
    ⟨[], rfl⟩ fes
  rintro f fe ⟨evs, hevs⟩
  rcases world_step compile cables f fe with h | ⟨ev, h⟩
  · exact ⟨evs, h.trans hevs⟩
  · refine ⟨evs ++ [ev], ?_⟩
    rw [h, hevs, World.run, World.run, runFrom_concat]

end Fabric

end SdnFirewall
