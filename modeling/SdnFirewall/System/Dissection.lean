import SdnFirewall.Controller.Dissector
import SdnFirewall.System.Tables

/-!
# Runs in which a parser may raise

The system with the outcome of `packet.Packet` as a parameter. Whatever that is, no frame touches
the rules or the connections. Where it is `Packet.parse` or an exception, a run is one of
`World.run` without the frames that do not dissect.
-/

namespace SdnFirewall

open Common OpenFlow Python

namespace Dissector

variable (dissect : Dissector) (compile : ReCompile)

/-- What the controller does with an event. -/
def handle (c : FirewallApp) : Event → FirewallApp × List Effect
  | .packetIn d now msg =>
    if d ∈ c.datapaths.keys then
      let r := (dissect.packetInHandler ⟨d⟩ now msg).run c
      (r.state, r.out)
    else (c, [])
  | ev => c.handle compile ev

/-- One event: the controller handles it, and the switches apply what it sent. -/
def step (w : World) (ev : Event) : World where
  ctl := (dissect.handle compile w.ctl ev).1
  tables := fun d => (w.expired ev d).applyAll (sentTo d (dissect.handle compile w.ctl ev).2)

/-- The state a list of events leads to from the start. -/
def run (dpi : DPIEngine) (evs : List Event) : World :=
  runFrom (dissect.step compile) (World.init dpi) evs

/-- The verdict on a packet-in that is handled. -/
def verdictOf? (c : FirewallApp) : Event → Option CheckResult
  | .packetIn d now msg =>
    if d ∈ c.datapaths.keys then dissect.verdict? c ⟨d⟩ now msg else none
  | _ => none

/-- The event is not a frame that a parser raises on. -/
def reads : Event → Bool
  | .packetIn _ _ msg => (dissect msg.data).isOk
  | _ => true

/-- The parser finds the headers of `Packet.parse` where it does not raise. -/
def Agrees : Prop := ∀ data pkt, dissect data = .ok pkt → pkt = Packet.parse data

end Dissector

section Handle

variable {dissect : Dissector} {compile : ReCompile} {c : FirewallApp} {w : World}

/-! ## Frames that do not dissect may be left out -/

/-- On a frame that both read alike the handlers are the same. -/
theorem handle_of_reads (hagrees : dissect.Agrees) {ev : Event} (h : dissect.reads ev = true) :
    dissect.handle compile c ev = c.handle compile ev := by
  cases ev with
  | handshake | rest | expire => rfl
  | packetIn d now msg =>
      cases hdissect : dissect msg.data with
      | error e =>
          rw [Dissector.reads, hdissect] at h
          cases h
      | ok pkt =>
          rw [hagrees msg.data pkt hdissect] at hdissect
          simp only [Dissector.handle, FirewallApp.handle, packetInHandler_of_parse hdissect]

/-- A frame that a parser raises on changes neither the controller nor a table. -/
theorem step_of_not_reads {ev : Event} (h : dissect.reads ev = false) :
    dissect.step compile w ev = w := by
  cases ev with
  | handshake | rest | expire => cases h
  | packetIn d now msg =>
      cases hdissect : dissect msg.data with
      | ok pkt =>
          rw [Dissector.reads, hdissect] at h
          cases h
      | error e =>
          have hhandle : dissect.handle compile w.ctl (.packetIn d now msg) = (w.ctl, []) := by
            obtain ⟨hstate, hout⟩ := run_packetInHandler_of_error hdissect ⟨d⟩ now w.ctl
            simp only [Dissector.handle, hstate, hout, ite_self]
          rw [Dissector.step, hhandle]
          rfl

/-- A run is that of the frames that dissect. -/
theorem dissected_run (hagrees : dissect.Agrees) (dpi : DPIEngine) (evs : List Event) :
    dissect.run compile dpi evs = World.run compile dpi (evs.filter dissect.reads) := by
  refine runFrom_filter (fun w ev => step_of_not_reads) (fun w ev hreads => ?_) _ evs
  rw [Dissector.step, handle_of_reads hagrees hreads]
  rfl

/-- With the plain parser a run is one of the system that parses. -/
theorem run_plain (compile : ReCompile) (dpi : DPIEngine) (evs : List Event) :
    Dissector.plain.run compile dpi evs = World.run compile dpi evs := by
  have hagrees : Dissector.plain.Agrees := fun _ _ h => (Except.ok.inj h).symm
  rw [dissected_run hagrees, List.filter_eq_self.mpr]
  intro ev _
  cases ev <;> rfl

/-! ## What no frame touches -/

/-- A packet-in leaves connections, signatures and rules alone. -/
theorem wiring_packetIn (dissect : Dissector) (compile : ReCompile) (c : FirewallApp) (d : ℕ)
    (now : ℚ) (msg : PacketIn) :
    (dissect.handle compile c (.packetIn d now msg)).1.wiring = c.wiring := by
  rw [Dissector.handle]
  split
  · exact ((dissectedHandler_local dissect ⟨d⟩ now msg).framedAt c).keeps
  · rfl

/-- Only a handshake connects a switch. -/
theorem datapaths_handle (dissect : Dissector) (compile : ReCompile) (hc : c.Keyed) (ev : Event) :
    (∃ d, ev = .handshake d ∧
        (dissect.handle compile c ev).1.datapaths = c.datapaths.set d ⟨d⟩) ∨
      (∀ d, ev ≠ .handshake d) ∧ (dissect.handle compile c ev).1.datapaths = c.datapaths := by
  cases ev with
  | packetIn d now msg =>
      exact Or.inr ⟨by simp, congrArg Prod.fst (wiring_packetIn dissect compile c d now msg)⟩
  | handshake | rest | expire =>
      exact World.datapaths_step compile (w := ⟨c, fun _ => []⟩) hc _

/-- Datapaths stay filed under their own numbers. -/
theorem keyed_dissected (dissect : Dissector) (compile : ReCompile) (w : World) (ev : Event)
    (hw : w.ctl.Keyed) : (dissect.step compile w ev).ctl.Keyed := by
  rcases datapaths_handle dissect compile hw ev with ⟨d, -, hd⟩ | ⟨-, hd⟩
  · exact keyed_of_datapaths_set hd hw
  · exact keyed_of_datapaths hd hw

end Handle

end SdnFirewall
