import SdnFirewall.Controller.Connection
import SdnFirewall.System.World

/-!
# Connections and the event queue

Every connection has its own receive loop, the firewall its own event loop, and between them is a
bounded queue. A loop that finds the queue full waits, and what happens in the meantime is up to
the others: the steps of all parties come in any order. A handler or a REST request is one step, as
in `World`, to which the switches and the controller belong; where they give way to each other in
between is the subject of `Interleaving`.
-/

namespace SdnFirewall

open Common OpenFlow

/-- An event in the queue, from one of the connections, in the phase it was sent in. -/
structure Queued where
  conn : ℕ
  ev : AppEvent
  state : Dispatcher

/-- The capacity of the queue. -/
def EVENTS_MAXSIZE : ℕ := 128

/-- A step of one of the parties. -/
inductive SessionEvent where
  /-- The receive loop of a connection comes to a message. -/
  | received (conn : ℕ) (m : SwitchMsg)
  | closed (conn : ℕ)
  /-- The event loop takes an event, at the time `now`. -/
  | eventLoop (now : ℚ)
  | rest (req : Request)
  | expire (dpid : ℕ) (e : FlowEntry)

/-- The connections, the queue, and what they lead to. -/
structure Sessions where
  world : World
  conns : ℕ → Connection
  events : List Queued

/-- The event as one of the system, from the switch of number `d`. -/
def AppEvent.toEvent (now : ℚ) (d : ℕ) : AppEvent → Event
  | .switchFeatures => .handshake d
  | .packetIn msg => .packetIn d now msg

/-- What a handler of the firewall does. It reads the number of the switch when it runs; without
one the packet-in handler raises before it has done anything. -/
def FirewallApp.handleEvent (c : FirewallApp) (id : Option ℕ) (now : ℚ) :
    AppEvent → FirewallApp × List Effect
  | .switchFeatures =>
    match id with
    | none => (c, [])
    | some d => let r := (switchHandshakeHandler ⟨d⟩).run c; (r.state, r.out)
  | .packetIn msg =>
    match id with
    | none => (c, [])
    | some d => let r := (packetInHandler ⟨d⟩ now msg).run c; (r.state, r.out)

namespace Sessions

/-- Nothing has happened on any connection. -/
def init (dpi : DPIEngine) : Sessions where
  world := .init dpi
  conns := fun _ => {}
  events := []

/-- One turn of `_event_loop`: the handlers registered for the phase the event was sent in. -/
def handleQueued (s : Sessions) (now : ℚ) (q : Queued) : World :=
  if q.ev.dispatcher = q.state then
    let r := s.world.ctl.handleEvent (s.conns q.conn).id now q.ev
    { ctl := r.1, tables := fun d => (s.world.tables d).applyAll (sentTo d r.2) }
  else s.world

/-- The receive loop of a connection can deal with a message: it has not ended, and if the message
is an event there is room for it. -/
def Ready (s : Sessions) (i : ℕ) (m : SwitchMsg) : Prop :=
  (s.conns i).state ≠ .dead ∧
    ((s.conns i).observed? m ≠ none → s.events.length < EVENTS_MAXSIZE)

instance (s : Sessions) (i : ℕ) (m : SwitchMsg) : Decidable (s.Ready i m) :=
  inferInstanceAs (Decidable (_ ∧ _))

/-- The event a message puts into the queue. -/
def queued? (s : Sessions) (i : ℕ) (m : SwitchMsg) : Option Queued :=
  ((s.conns i).observed? m).map fun ev => ⟨i, ev, (s.conns i).state⟩

/-- The receive loop of a connection deals with a message: the observers come first. -/
def accept (s : Sessions) (i : ℕ) (m : SwitchMsg) : Sessions :=
  { s with
    conns := Function.update s.conns i ((s.conns i).dispatch m)
    events := s.events ++ (s.queued? i m).toList }

/-- One step. A loop that is not ready waits. Every handler of the firewall and every REST request
is one step, from its start to its end. -/
def step (compile : ReCompile) (s : Sessions) : SessionEvent → Sessions
  | .received i m => if s.Ready i m then s.accept i m else s
  | .closed i => { s with conns := Function.update s.conns i (s.conns i).close }
  | .eventLoop now =>
    match s.events with
    | [] => s
    | q :: events => { s with world := s.handleQueued now q, events }
  | .rest req => { s with world := s.world.step compile (.rest req) }
  | .expire d e => { s with world := s.world.step compile (.expire d e) }

/-- The state a list of steps leads to from the start. -/
def run (compile : ReCompile) (dpi : DPIEngine) (evs : List SessionEvent) : Sessions :=
  runFrom (step compile) (init dpi) evs

/-! ## What a step is to the others -/

/-- What the controller and the switches see of a step. -/
def worldEvent? (s : Sessions) : SessionEvent → Option Event
  | .received _ _ => none
  | .closed _ => none
  | .eventLoop now =>
    s.events.head?.bind fun q => (s.conns q.conn).id.map fun d => q.ev.toEvent now d
  | .rest req => some (.rest req)
  | .expire d e => some (.expire d e)

end Sessions

/-! ## A connection on its own -/

namespace Connection

/-- What a message, or the end, does to a connection. -/
def next (conn : Connection) (input : Option SwitchMsg) : Connection :=
  input.elim conn.close conn.dispatch

end Connection

end SdnFirewall
