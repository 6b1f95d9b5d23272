import SdnFirewall.Packet.Mininet
import SdnFirewall.System.Learning

/-!
# Stations that move

Every packet-in with a verdict says anew where its sender is, while a learned entry stays in the
switch as it was written. The two agree until a station that such an entry leads to shows up behind
another port.
-/

namespace SdnFirewall

open Common OpenFlow Python

/-- A learned entry sends its frames out of a port at which their destination is learned once their
sender is. -/
theorem FirewallApp.LearnsRoute.get?_routeOf {c : FirewallApp} {d : ℕ} {now : ℚ} {msg : PacketIn}
    {ethPkt : Ethernet} (h : c.LearnsRoute d now msg ethPkt) :
    ((c.portsOf d).set ethPkt.src msg.inPort.no).get? ethPkt.dst =
      some (c.routeOf d msg ethPkt) := by
  obtain ⟨-, -, -, -, hflood⟩ := h
  rw [FirewallApp.routeOf, FirewallApp.outPortOf, FirewallApp.portsOf_learnMac] at hflood ⊢
  cases hport : ((c.portsOf d).set ethPkt.src msg.inPort.no).get? ethPkt.dst with
  | none => exact absurd (by rw [hport, Option.getD_none]) hflood
  | some port => rw [Option.getD_some]

namespace World

/-! ## Entries and locations -/

/-- Every entry of priority 1 sends its frames where their destination was seen last. -/
def RoutesAgree (w : World) : Prop :=
  ∀ d, ∀ e ∈ w.tables d, e.priority = 1 →
    ∃ mac port, e.ofMatch.ethDst = some mac ∧ (w.ctl.portsOf d).get? mac = some port ∧
      e.actions = [{ port }]

/-- The event shows a station behind another port than the one it is learned on, while the switch
has an entry of priority 1 that leads to the station. -/
def Strands (w : World) (ev : Event) : Prop :=
  ∃ d mac inPort port, w.ctl.Locates ev d mac inPort ∧ (w.ctl.portsOf d).get? mac = some port ∧
    port ≠ inPort.no ∧ ∃ e ∈ w.tables d, e.priority = 1 ∧ e.ofMatch.ethDst = some mac

/-- An entry that is for frames of a station to itself leads back to the port it is for. -/
def LoopsBack (w : World) : Prop :=
  ∀ d, ∀ e ∈ w.tables d, e.priority = 1 → e.ofMatch.ethDst = e.ofMatch.ethSrc →
    ∃ port, e.ofMatch.inPort = some port ∧ e.actions = [{ port }]

/-- What holds of the learned entries as long as no station moves away from one. -/
structure Settled (w : World) : Prop where
  sound : w.Sound
  loopsBack : w.LoopsBack
  agree : w.RoutesAgree

/-- At first there is no entry to strand. -/
theorem settled_init (dpi : DPIEngine) : (init dpi).Settled where
  sound := sound_init dpi
  loopsBack := fun _ _ he => absurd he List.not_mem_nil
  agree := fun _ _ he => absurd he List.not_mem_nil

/-! ## One event -/

variable {compile : ReCompile} {w : World} {ev : Event}

/-- Every event keeps the entries of a station to itself leading back. -/
theorem loopsBack_step (hw : w.Sound) (h : w.LoopsBack) (ev : Event) :
    (w.step compile ev).LoopsBack := by
  intro d e he hprio hloop
  rcases mem_step_of_priority_one hw he hprio with he | ⟨now, msg, ethPkt, -, hlearn, rfl⟩
  · exact h d e he hprio hloop
  · have hdst : ethPkt.dst = ethPkt.src := Option.some.inj hloop
    have hroute := hlearn.get?_routeOf
    rw [hdst, Dict.get?_set_self] at hroute
    refine ⟨msg.inPort.no, rfl, ?_⟩
    rw [learnedEntry_actions, Option.some.inj hroute]

/-- The location of a station with an entry that leads to it changes in a stranding event only. -/
theorem get?_portsOf_step (hw : w.Sound) (hev : ¬ w.Strands ev) {d : ℕ} {e : FlowEntry}
    (he : e ∈ w.tables d) (hprio : e.priority = 1) {mac : String} {port : ℕ}
    (hdst : e.ofMatch.ethDst = some mac) (hport : (w.ctl.portsOf d).get? mac = some port) :
    ((w.step compile ev).ctl.portsOf d).get? mac = some port := by
  by_cases hseen : ∃ mac' inPort, w.ctl.Locates ev d mac' inPort
  · obtain ⟨mac', inPort, hloc⟩ := hseen
    rw [World.step, portsOf_of_locates hw.keyed hloc, Dict.get?_set]
    split
    · rename_i hmac
      subst hmac
      by_contra hne
      refine hev ⟨d, mac, inPort, port, hloc, hport, fun heq => hne ?_, e, he, hprio, hdst⟩
      rw [heq]
    · exact hport
  · rw [World.step, portsOf_of_not_locates hw.keyed fun mac' inPort h => hseen ⟨mac', inPort, h⟩]
    exact hport

/-- An event that strands no entry keeps what holds of the learned entries. -/
theorem settled_step (h : w.Settled) (hev : ¬ w.Strands ev) : (w.step compile ev).Settled := by
  refine ⟨sound_step h.sound ev, loopsBack_step h.sound h.loopsBack ev, ?_⟩
  intro d e he hprio
  rcases mem_step_of_priority_one h.sound he hprio with he | ⟨now, msg, ethPkt, rfl, hlearn, rfl⟩
  · obtain ⟨mac, port, hdst, hport, hout⟩ := h.agree d e he hprio
    exact ⟨mac, port, hdst, get?_portsOf_step h.sound hev he hprio hdst hport, hout⟩
  · -- the destination is looked up after the sender has been learned, as the next event will see it
    have hloc : w.ctl.Locates (.packetIn d now msg) d ethPkt.src msg.inPort := by
      refine ⟨now, msg, ethPkt, rfl, ?_, hlearn.2.2.1, rfl, rfl⟩
      rw [verdictOf?_eq_some.mpr ⟨hlearn.1, hlearn.2.1⟩, Option.isSome_some]
    refine ⟨ethPkt.dst, w.ctl.routeOf d msg ethPkt, rfl, ?_, rfl⟩
    rw [World.step, portsOf_of_locates h.sound.keyed hloc]
    exact hlearn.get?_routeOf

/-- No delete takes a learned entry, and only a learned entry with the same match replaces one. -/
theorem mem_step_of_learned (hw : w.Sound) {d : ℕ} {e : FlowEntry} (he : e ∈ w.tables d)
    (hprio : e.priority = 1)
    (hkeep : ∀ now msg ethPkt, ev = .packetIn d now msg → w.ctl.LearnsRoute d now msg ethPkt →
      e.ofMatch ≠ learnedMatch msg.inPort.no ethPkt) :
    e ∈ (w.step compile ev).tables d := by
  obtain ⟨inPort, ethPkt, outPort, rfl⟩ := (hw.known d e he).learned_of_priority hprio
  obtain ⟨c', ms, hact, -, -, htables⟩ := step_spec compile hw.keyed ev
  rw [htables]
  refine FlowTable.mem_applyAll_of_spares (mem_expired_of_permanent he rfl rfl) fun m hm => ?_
  cases hinst : m.installs? with
  | none =>
      rcases deletes_of_acted hact hm hinst with ⟨out, rfl⟩ | ⟨mt, rfl, hdel⟩
      · trivial
      · intro hcov
        exact absurd (hcov.ethType_eq hdel.ethType) (by simp [learnedMatch])
  | some e' =>
      refine OFPMsg.spares_of_installs hinst (Or.inr ?_)
      rintro ⟨hprio', hmatch⟩
      cases installs_of_acted hact hm hinst with
      | learned now msg ethPkt' hlearn => exact hkeep now msg ethPkt' rfl hlearn hmatch
      | miss | catchAll | refill | rateDrop | arpDrop | forward | reverse => simp at hprio'

/-- A stranding event leaves an entry that leads to where the station was before. -/
theorem not_routesAgree_step (h : w.Settled) (hev : w.Strands ev) :
    ¬ (w.step compile ev).RoutesAgree := by
  obtain ⟨d, mac, inPort, port, hloc, hport, hne, e, he, hprio, hdst⟩ := hev
  obtain ⟨mac', port', hdst', hport', hout⟩ := h.agree d e he hprio
  obtain rfl : mac' = mac := Option.some.inj (hdst'.symm.trans hdst)
  obtain rfl : port' = port := Option.some.inj (hport'.symm.trans hport)
  have hstays : e ∈ (w.step compile ev).tables d := by
    refine mem_step_of_learned h.sound he hprio ?_
    rintro now msg ethPkt rfl hlearn hmatch
    -- the station would have sent the frame to itself, so that the old entry leads to the new port
    obtain ⟨now', msg', ethPkt', hev, -, heth, rfl, rfl⟩ := hloc
    obtain ⟨-, -, rfl⟩ := Event.packetIn.inj hev
    obtain rfl : ethPkt' = ethPkt := Option.some.inj (heth.symm.trans hlearn.2.2.1)
    rw [hmatch] at hdst
    obtain ⟨back, hback, hout'⟩ := h.loopsBack d e he hprio (by rw [hmatch]; exact hdst)
    rw [hmatch] at hback
    obtain rfl : msg.inPort.no = back := Option.some.inj hback
    rw [hout] at hout'
    exact hne (congrArg OFPActionOutput.port (List.cons.inj hout').1)
  intro hagree
  obtain ⟨mac'', port'', hdst'', hport'', hout'⟩ := hagree d e hstays hprio
  obtain rfl : mac'' = mac' := Option.some.inj (hdst''.symm.trans hdst)
  rw [World.step, portsOf_of_locates h.sound.keyed hloc, Dict.get?_set_self] at hport''
  rw [hout] at hout'
  refine hne ((congrArg OFPActionOutput.port (List.cons.inj hout').1).trans ?_)
  exact (Option.some.inj hport'').symm

/-! ## Runs -/

/-- Every entry of priority 1 agrees with the learned locations at every moment of a run exactly if
no station that such an entry leads to is seen behind another port in the run. -/
theorem routesAgree_iff_along (compile : ReCompile) (dpi : DPIEngine) (evs : List Event) :
    (∀ n, (run compile dpi (evs.take n)).RoutesAgree) ↔
      Along (step compile) (fun w ev => ¬ w.Strands ev) (init dpi) evs := by
  refine forall_take_iff_along Settled RoutesAgree ?_ (fun w h => h.agree) ?_ (settled_init dpi) evs
  · exact fun w ev h hev => settled_step h hev
  · exact fun w ev h hev => not_routesAgree_step h (not_not.mp hev)

/-- Host 1 sends host 2 an ARP reply, and host 2 then moves to the port after it. -/
def movedHostRun : List Event :=
  [.handshake 1, .packetIn 1 0 (packetInFrom 2 (arpFrame 2 1 2)),
    .packetIn 1 0 (packetInFrom 1 (arpFrame 1 2 1)),
    .packetIn 1 0 { packetInFrom 2 (arpFrame 2 1 2) with inPort := portOf 3 }]

/-- The controller knows the new port, and the entry still sends to the old one. -/
theorem not_routesAgree_movedHostRun :
    ¬ (run builtinCompile builtinEngine movedHostRun).RoutesAgree := by
  have hrun : ∃ e ∈ (run builtinCompile builtinEngine movedHostRun).tables 1, e.priority = 1 ∧
      e.ofMatch.ethDst = some "00:00:00:00:00:02" ∧ e.actions = [{ port := 3 }] ∧
      ((run builtinCompile builtinEngine movedHostRun).ctl.portsOf 1).get? "00:00:00:00:00:02" =
        some 4 := by
    decide +kernel
  obtain ⟨e, he, hprio, hdst, hout, hport⟩ := hrun
  intro hagree
  obtain ⟨mac, port, hdst', hport', hout'⟩ := hagree 1 e he hprio
  obtain rfl : "00:00:00:00:00:02" = mac := Option.some.inj (hdst.symm.trans hdst')
  obtain rfl : 4 = port := Option.some.inj (hport.symm.trans hport')
  rw [hout] at hout'
  exact absurd hout' (by decide)

end World

end SdnFirewall
