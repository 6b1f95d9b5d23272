import SdnFirewall.Controller.Sections
import SdnFirewall.System.World

/-!
# Handlers that interleave

One call of `add_dpi_pattern` among handlers of packet-ins and handshakes. Each of them runs in
sections: it gives way before and after every message to a switch and every broadcast, and any
other may go on from there. A broadcast may raise.

Beside the state runs a record of what the packets behind it were inspected with: which of them came
to their checks before the new signature was in the list, and which counts and entries rest on one
of those.
-/

namespace SdnFirewall

open Common OpenFlow Python

/-- A handler at work for a switch. `early` says that its first section was over before the
signature was in the list, `tainted` that it has counted a packet for a record that rests on an
early one. -/
structure Handler where
  dpid : ℕ
  prog : Fw Unit
  begun : Bool := false
  early : Bool := false
  tainted : Bool := false

/-- The controller at work. `added` says that the call has put its signature in the list, `passed`
to which switches its flush has sent the delete, and `cleared` that the flush has emptied the trust
table. `tainted` tells which records have counted an early packet, and `stale` for which matches
the last trust entry added to a switch was granted on such a record. -/
structure Interleaving where
  ctl : FirewallApp
  tables : ℕ → FlowTable
  call : Fw Response
  handlers : List Handler
  added : Bool
  passed : ℕ → Bool
  cleared : Bool
  tainted : TrustKey → Bool
  stale : ℕ → OFPMatch → Bool

/-- Who goes on, and how a broadcast ends. -/
inductive Switching where
  /-- The handler of a packet-in is started. -/
  | packetIn (dpid : ℕ) (now : ℚ) (msg : PacketIn)
  /-- The handler of a handshake is started. -/
  | handshake (dpid : ℕ)
  /-- A handler goes on to its next outward action. -/
  | run (i : ℕ)
  /-- The outward action of a handler happens. -/
  | act (i : ℕ) (fail : Option Exc)
  /-- The call goes on to its next outward action. -/
  | callRun
  /-- The outward action of the call happens. -/
  | callAct (fail : Option Exc)
  | expire (dpid : ℕ) (e : FlowEntry)

/-- How an outward action ends: a broadcast may raise. -/
def Effect.result (fail : Option Exc) : Effect → Except Exc Unit
  | .sendMsg _ _ => .ok ()
  | .broadcast _ =>
    match fail with
    | some e => .error e
    | none => .ok ()

/-- The tables once an outward action has happened. -/
def Effect.applied (tables : ℕ → FlowTable) : Effect → ℕ → FlowTable
  | .sendMsg d m => Function.update tables d ((tables d).apply m)
  | .broadcast _ => tables

/-- The switch and match of the trust entry an outward action adds. -/
def Effect.trustAdd? : Effect → Option (ℕ × OFPMatch)
  | .sendMsg d (.flowMod mod) =>
    if mod.command = .add ∧ mod.priority = TRUST_FLOW_PRIORITY then some (d, mod.ofMatch) else none
  | _ => none

/-- The switch an outward action sends a delete to. -/
def Effect.deletesAt? : Effect → Option ℕ
  | .sendMsg d (.flowMod mod) => if mod.command = .delete then some d else none
  | _ => none

/-- The call has come to its first broadcast. -/
def AtBroadcast : Fw Response → Bool
  | .emit (.broadcast _) _ => true
  | _ => false

namespace Interleaving

/-- The call is about to start; every packet counted so far is an early one, and every entry rests
on such packets. -/
def start (compile : ReCompile) (body : Except Exc Json) (w : World) : Interleaving where
  ctl := w.ctl
  tables := w.tables
  call := addDpiPattern compile body
  handlers := []
  added := false
  passed := fun _ => false
  cleared := false
  tainted := fun k => decide (0 < (w.ctl.entryOf k).count)
  stale := fun _ _ => true

/-- A section that leaves the state `c'` counts a packet for the flow. -/
def CountsIn (s : Interleaving) (c' : FirewallApp) (k : TrustKey) : Prop :=
  (s.ctl.entryOf k).count < (c'.entryOf k).count

instance (s : Interleaving) (c' : FirewallApp) (k : TrustKey) : Decidable (s.CountsIn c' k) :=
  inferInstanceAs (Decidable (_ < _))

/-- Which records rest on an early packet after a section that leaves the state `c'`. -/
def taintedAfter (s : Interleaving) (c' : FirewallApp) (early : Bool) (k : TrustKey) : Bool :=
  if c'.trustTable.get? k = none then false
  else if s.CountsIn c' k then s.tainted k || early
  else s.tainted k

/-- The packet of a handler was inspected before the signature was in the list: its first section is
over, or comes now. -/
def early (s : Interleaving) (h : Handler) : Bool := if h.begun then h.early else !s.added

/-- A handler goes on to its next outward action. -/
def runHandler (s : Interleaving) (i : ℕ) (h : Handler) : Interleaving :=
  let r := h.prog.settle s.ctl
  let tainted' := s.taintedAfter r.2 (s.early h)
  { s with
    ctl := r.2
    tainted := tainted'
    handlers := s.handlers.set i
      { h with
        prog := r.1
        begun := true
        early := s.early h
        tainted := h.tainted || r.2.trustTable.keys.any fun k => s.CountsIn r.2 k ∧ tainted' k } }

/-- The outward action a handler waits at happens. -/
def actHandler (s : Interleaving) (i : ℕ) (h : Handler) (fail : Option Exc) : Interleaving :=
  match h.prog with
  | .emit o k =>
    { s with
      tables := o.applied s.tables
      stale := fun d m => if o.trustAdd? = some (d, m) then h.tainted else s.stale d m
      handlers := s.handlers.set i { h with prog := k (o.result fail) } }
  | _ => s

/-- The call goes on to its next outward action. -/
def runCall (s : Interleaving) : Interleaving :=
  let r := s.call.settle s.ctl
  let added' := s.added || decide (s.ctl.dpi.patterns.length < r.2.dpi.patterns.length)
  { s with
    ctl := r.2
    call := r.1
    added := added'
    cleared := s.cleared || added' && AtBroadcast r.1
    tainted := s.taintedAfter r.2 false }

/-- The outward action the call waits at happens. -/
def actCall (s : Interleaving) (fail : Option Exc) : Interleaving :=
  match s.call with
  | .emit o k =>
    { s with
      tables := o.applied s.tables
      passed := fun d => s.passed d || decide (o.deletesAt? = some d)
      call := k (o.result fail) }
  | _ => s

/-- One event. -/
def step (s : Interleaving) : Switching → Interleaving
  | .packetIn d now msg =>
    if d ∈ s.ctl.datapaths.keys then
      { s with handlers := s.handlers ++ [{ dpid := d, prog := packetInHandler ⟨d⟩ now msg }] }
    else s
  | .handshake d =>
    { s with handlers := s.handlers ++ [{ dpid := d, prog := switchHandshakeHandler ⟨d⟩ }] }
  | .run i =>
    match s.handlers[i]? with
    | some h => s.runHandler i h
    | none => s
  | .act i fail =>
    match s.handlers[i]? with
    | some h => s.actHandler i h fail
    | none => s
  | .callRun => s.runCall
  | .callAct fail => s.actCall fail
  | .expire d e => { s with tables := Function.update s.tables d ((s.tables d).expire e) }

end Interleaving

end SdnFirewall
