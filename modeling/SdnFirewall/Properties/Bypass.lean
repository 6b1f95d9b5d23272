import SdnFirewall.Packet.Mininet
import SdnFirewall.Properties.TrustTable
import SdnFirewall.System.Network

/-!
# Blocked flows in hardware

The DPI stage blocks a flow in its record and sends the switches nothing. A segment that was in
flight when the trust of its flow was completed, or that comes in when one of the two entries has
timed out, can block the flow while the switches still hold an entry for it. A blocked flow is kept
out of the hardware exactly in the runs in which no flow is blocked that late.
-/

namespace SdnFirewall

open Common OpenFlow Python

/-! ## Entries for a flow -/

/-- The entry is of the trust priority and for one direction of the flow. -/
def Bypasses (k : TrustKey) (e : FlowEntry) : Prop :=
  e.priority = TRUST_FLOW_PRIORITY ∧ flowKeyOfMatch? e.ofMatch = some k

instance (k : TrustKey) (e : FlowEntry) : Decidable (Bypasses k e) :=
  inferInstanceAs (Decidable (_ ∧ _))

/-- A message trusts a flow if what it installs bypasses inspection for it. -/
theorem trustsFlow_iff_installs {k : TrustKey} {m : OFPMsg} :
    TrustsFlow k m ↔ ∃ e, m.installs? = some e ∧ Bypasses k e := by
  cases m with
  | packetOut out => simp [TrustsFlow, OFPMsg.installs?]
  | flowMod mod =>
      by_cases hc : mod.command = .add
      · simp [TrustsFlow, OFPMsg.installs?, hc, Bypasses, OFPFlowMod.entry]
      · simp [TrustsFlow, OFPMsg.installs?, hc]

/-- A flow that is blocked after an event was blocked before, or the DPI stage has just blocked
it. -/
theorem blocked_of_handle {compile : ReCompile} {c : FirewallApp} (hc : c.Keyed) {ev : Event}
    {k : TrustKey} (hb : ((c.handle compile ev).1.entryOf k).blocked = true) :
    (c.entryOf k).blocked = true ∨ ∃ call, c.dpiCall? ev = some call ∧ call.key = k ∧
      (call.after c).blocked = true := by
  rcases get?_handle compile hc ev k with ⟨-, hnone⟩ | ⟨hdrop, -⟩
  · rw [entryOf_of_get?_none hnone] at hb
    exact absurd hb (by simp)
  · rw [blocked_handle hc hdrop] at hb
    rcases getD_inspected?_cases c ev k with h | ⟨call, hcall, rfl, h⟩
    · rw [h] at hb
      exact Or.inl hb
    · rw [h] at hb
      exact Or.inr ⟨call, hcall, rfl, hb⟩

/-- A segment that the DPI stage blocks leaves the record of its flow blocked. -/
theorem blocked_handle_of_dpiCall? {compile : ReCompile} {c : FirewallApp} (hc : c.Keyed)
    {ev : Event} {call : DpiCall} (hcall : c.dpiCall? ev = some call)
    (hb : (call.after c).blocked = true) :
    ((c.handle compile ev).1.entryOf call.key).blocked = true := by
  have hdrop : ¬ c.Drops compile call.key ev := not_drops_of_flow? (flow?_of_dpiCall? hcall).1
  rw [blocked_handle hc hdrop, getD_inspected?, hcall]
  simpa using hb

namespace Network

variable {compile : ReCompile} {classify : PacketIn → FlowKey} {net : Network} {ev : NetEvent}
  {k : TrustKey}

/-- A switch holds an entry for the flow, or has been sent one. -/
def Bypassed (k : TrustKey) (net : Network) : Prop :=
  (∃ d, ∃ e ∈ net.tables d, Bypasses k e) ∨ ∃ d, ∃ m ∈ net.pending d, TrustsFlow k m

/-- No switch holds an entry for a blocked flow. -/
def NoBypass (net : Network) : Prop :=
  ∀ k entry, net.ctl.trustTable.get? k = some entry → entry.blocked = true →
    ∀ d, ∀ e ∈ net.tables d, ¬ Bypasses k e

/-- The controller handles a segment that makes the DPI stage block its flow, while a switch holds
an entry for the flow or has been sent one. -/
def BlocksBypassed (net : Network) (ev : NetEvent) : Prop :=
  ∃ cev call, net.dispatched? ev = some cev ∧ net.ctl.dpiCall? cev = some call ∧
    (net.ctl.entryOf call.key).blocked = false ∧ (call.after net.ctl).blocked = true ∧
    net.Bypassed call.key

/-- The switches by themselves only apply what they were sent. -/
theorem bypassed_of_receive (h : (net.receive classify ev).Bypassed k) : net.Bypassed k := by
  cases ev with
  | handshake | rest | handle => exact h
  | arrive d msg =>
      simp only [receive] at h
      split at h <;> exact h
  | apply d =>
      rcases h with ⟨d', e, he, hk⟩ | ⟨d', m, hm, hk⟩
      · by_cases hd : d' = d
        · subst hd
          simp only [receive, Function.update_self] at he
          -- what the switch has just installed was in its channel before
          rcases FlowTable.mem_applyAll he with he | ⟨m, hm, hinst⟩
          · exact Or.inl ⟨d', e, he, hk⟩
          · refine Or.inr ⟨d', m, ?_, trustsFlow_iff_installs.mpr ⟨e, hinst, hk⟩⟩
            exact List.mem_of_mem_head? (Option.mem_toList.mp hm)
        · simp only [receive, Function.update_of_ne hd] at he
          exact Or.inl ⟨d', e, he, hk⟩
      · by_cases hd : d' = d
        · subst hd
          simp only [receive, Function.update_self] at hm
          exact Or.inr ⟨d', m, List.mem_of_mem_tail hm, hk⟩
        · simp only [receive, Function.update_of_ne hd] at hm
          exact Or.inr ⟨d', m, hm, hk⟩
  | expire d e =>
      rcases h with ⟨d', e', he, hk⟩ | h
      · by_cases hd : d' = d
        · subst hd
          simp only [receive, Function.update_self] at he
          exact Or.inl ⟨d', e', FlowTable.mem_of_mem_expire he, hk⟩
        · simp only [receive, Function.update_of_ne hd] at he
          exact Or.inl ⟨d', e', he, hk⟩
      · exact Or.inr h

/-- An entry for a flow was held or on its way before, or the controller has just sent the pair. -/
theorem bypassed_of_step (h : (net.step compile classify ev).Bypassed k) :
    net.Bypassed k ∨
      ∃ cev, net.dispatched? ev = some cev ∧ net.settled.SendsPair compile k cev := by
  unfold step at h
  cases hcev : net.dispatched? ev with
  | none =>
      rw [hcev] at h
      exact Or.inl (bypassed_of_receive h)
  | some cev =>
      rw [hcev] at h
      rcases h with h | ⟨d, m, hm, hk⟩
      · exact Or.inl (bypassed_of_receive (Or.inl h))
      · rcases List.mem_append.mp hm with hm | hm
        · exact Or.inl (bypassed_of_receive (Or.inr ⟨d, m, hm, hk⟩))
        · rw [ctl_receive] at hm
          exact Or.inr ⟨cev, rfl, .sendMsg d m, mem_sentTo.mp hm, hk⟩

/-- What is held or on its way stays so while the controller handles an event. -/
theorem Bypassed.step_of_dispatched (h : net.Bypassed k) {cev : Event}
    (hcev : net.dispatched? ev = some cev) : (net.step compile classify ev).Bypassed k := by
  have hreceive : (net.receive classify ev).Bypassed k := by
    cases ev with
    | handshake | rest | handle => exact h
    | arrive | apply | expire => exact absurd hcev (by simp [dispatched?])
  unfold step
  rw [hcev]
  rcases hreceive with hheld | ⟨d, m, hm, hk⟩
  · exact Or.inl hheld
  · exact Or.inr ⟨d, m, List.mem_append_left _ hm, hk⟩

/-! ## Blocked flows along a run -/

/-- What the run is proved with: nothing is held or on its way for a blocked flow. -/
structure Guarded (net : Network) : Prop where
  trustSound : net.settled.TrustSound
  unbypassed : ∀ k, (net.ctl.entryOf k).blocked = true → ¬ net.Bypassed k

/-- At first there is nothing to bypass. -/
theorem guarded_init (dpi : DPIEngine) : (init dpi).Guarded where
  trustSound := World.trustSound_init dpi
  unbypassed := by
    rintro k - (⟨d, e, he, -⟩ | ⟨d, m, hm, -⟩)
    · exact List.not_mem_nil he
    · exact List.not_mem_nil hm

/-- The controller changes only where an event is dispatched to it. -/
theorem ctl_step (compile : ReCompile) (classify : PacketIn → FlowKey) (net : Network)
    (ev : NetEvent) :
    (net.step compile classify ev).ctl =
      match net.dispatched? ev with
      | none => net.ctl
      | some cev => (net.ctl.handle compile cev).1 := by
  unfold step
  cases net.dispatched? ev with
  | none => exact ctl_receive classify net ev
  | some cev => exact congrArg (fun c => (c.handle compile cev).1) (ctl_receive classify net ev)

/-- Every step keeps the settled tables and the records in agreement. -/
theorem trustSound_step (hnet : net.settled.TrustSound) :
    (net.step compile classify ev).settled.TrustSound := by
  rcases settled_step compile classify net ev with h | ⟨wev, h⟩
  · rw [h]
    exact hnet
  · rw [h]
    exact World.trustSound_step hnet wev

/-- Nothing comes to be held or on its way for a blocked flow, unless the flow is blocked too
late. -/
theorem guarded_step (hnet : net.Guarded) (hev : ¬ net.BlocksBypassed ev) :
    (net.step compile classify ev).Guarded := by
  refine ⟨trustSound_step hnet.trustSound, fun k hb hbypass => ?_⟩
  have hkeyed : net.ctl.Keyed := hnet.trustSound.sound.keyed
  rw [ctl_step] at hb
  rcases bypassed_of_step hbypass with hold | ⟨cev, hcev, hsends⟩
  · have hopen : (net.ctl.entryOf k).blocked = false :=
      Bool.eq_false_of_not_eq_true fun hblocked => hnet.unbypassed k hblocked hold
    cases hcev : net.dispatched? ev with
    | none =>
        rw [hcev, hopen] at hb
        exact absurd hb (by simp)
    | some cev =>
        rw [hcev] at hb
        rcases blocked_of_handle hkeyed hb with hblocked | ⟨call, hcall, rfl, hafter⟩
        · exact hnet.unbypassed k hblocked hold
        · exact hev ⟨cev, call, hcev, hcall, hopen, hafter, hold⟩
  · -- the pair is sent for an unblocked record
    have hopen := World.unblocked_of_sendsPair hnet.trustSound hsends
    rw [hcev] at hb
    exact absurd (hb.symm.trans hopen) (by simp)

/-- In a guarded network no frame of a blocked flow passes unseen. -/
theorem noBypass_of_guarded (hnet : net.Guarded) : net.NoBypass := by
  intro k entry hget hb d e he hk
  refine hnet.unbypassed k ?_ (Or.inl ⟨d, e, he, hk⟩)
  rw [entryOf_of_get?_some hget]
  exact hb

/-- A switch that applies the next messages it was sent. -/
theorem run_apply (compile : ReCompile) (classify : PacketIn → FlowKey) (net : Network) (d n : ℕ) :
    (runFrom (step compile classify) net (List.replicate n (.apply d))).ctl = net.ctl ∧
      (runFrom (step compile classify) net (List.replicate n (.apply d))).tables d =
        (net.tables d).applyAll ((net.pending d).take n) := by
  induction n generalizing net with
  | zero => exact ⟨rfl, rfl⟩
  | succ n ih =>
      obtain ⟨hctl, htables⟩ := ih (net.step compile classify (.apply d))
      rw [List.replicate_succ, runFrom_cons]
      refine ⟨hctl, htables.trans ?_⟩
      simp only [step, dispatched?, receive, Function.update_self, ← FlowTable.applyAll_append]
      cases net.pending d <;> simp

/-- What is on its way for a blocked flow arrives. -/
theorem exists_bypass_of_bypassed (compile : ReCompile) (classify : PacketIn → FlowKey)
    {net : Network} {k : TrustKey} (hb : (net.ctl.entryOf k).blocked = true)
    (h : net.Bypassed k) :
    ∃ ds : List ℕ, ¬ (runFrom (step compile classify) net (ds.map .apply)).NoBypass := by
  obtain ⟨entry, hget, hentry⟩ : ∃ entry, net.ctl.trustTable.get? k = some entry ∧
      entry.blocked = true := by
    cases hget : net.ctl.trustTable.get? k with
    | none =>
        rw [entryOf_of_get?_none hget] at hb
        exact absurd hb (by simp)
    | some entry =>
        rw [entryOf_of_get?_some hget] at hb
        exact ⟨entry, rfl, hb⟩
  -- the entry is in a table already, or the message that installs it is under way
  rcases h with ⟨d, e, he, hk⟩ | ⟨d, m, hm, hk⟩
  · exact ⟨[], fun hgood => hgood k entry hget hentry d e he hk⟩
  · obtain ⟨e, hinst, hk⟩ := trustsFlow_iff_installs.mp hk
    obtain ⟨before, after, hpending⟩ := List.append_of_mem hm
    refine ⟨List.replicate (before.length + 1) d, fun hgood => ?_⟩
    rw [List.map_replicate] at hgood
    obtain ⟨hctl, htables⟩ := run_apply compile classify net d (before.length + 1)
    refine hgood k entry (by rw [hctl]; exact hget) hentry d e ?_ hk
    have htake : (net.pending d).take (before.length + 1) = before ++ [m] := by
      rw [hpending, List.take_append]
      simp
    rw [htables, htake, FlowTable.applyAll_append]
    exact FlowTable.mem_apply_of_installs _ hinst

/-- At every moment of the run, and once any switches have applied what they were sent, no blocked
flow is bypassed, exactly when the run blocks no flow that is bypassed already. -/
theorem noBypass_iff (compile : ReCompile) (classify : PacketIn → FlowKey) (dpi : DPIEngine)
    (evs : List NetEvent) :
    (∀ n (ds : List ℕ), (run compile classify dpi (evs.take n ++ ds.map .apply)).NoBypass) ↔
      Along (step compile classify) (fun net ev => ¬ net.BlocksBypassed ev) (init dpi) evs := by
  simp only [run, runFrom_append]
  refine forall_take_iff_along Guarded
    (fun net => ∀ ds : List ℕ,
      (runFrom (step compile classify) net (ds.map .apply)).NoBypass) ?_ ?_ ?_ ?_ evs
  · exact fun net ev hnet hev => guarded_step hnet hev
  · intro net hnet ds
    have happly : ∀ ev ∈ ds.map NetEvent.apply, ∃ d, ev = .apply d := by
      intro ev hev
      obtain ⟨d, -, rfl⟩ := List.mem_map.mp hev
      exact ⟨d, rfl⟩
    -- applying messages dispatches nothing to the controller
    refine noBypass_of_guarded ((along_of_forall_mem (step compile classify) happly net).invariant
      Guarded (fun net ev hnet hev => guarded_step hnet ?_) hnet)
    obtain ⟨d, rfl⟩ := hev
    rintro ⟨cev, call, hcev, -⟩
    exact absurd hcev (by simp [dispatched?])
  · rintro net ev hnet hev hgood
    obtain ⟨cev, call, hcev, hcall, -, hafter, hbypass⟩ := not_not.mp hev
    have hb : ((net.step compile classify ev).ctl.entryOf call.key).blocked = true := by
      rw [ctl_step, hcev]
      exact blocked_handle_of_dpiCall? hnet.trustSound.sound.keyed hcall hafter
    obtain ⟨ds, hbad⟩ := exists_bypass_of_bypassed compile classify hb
      (hbypass.step_of_dispatched hcev)
    exact hbad (hgood ds)
  · exact guarded_init dpi

/-- The fields of a frame, as its headers give them. -/
def headerKey (msg : PacketIn) : FlowKey :=
  let pkt := Packet.parse msg.data
  { inPort := some msg.inPort.no
    ethDst := pkt.ethernet.map Ethernet.dst
    ethSrc := pkt.ethernet.map Ethernet.src
    ethType := pkt.ethernet.map Ethernet.ethertype
    ipProto := pkt.ipv4.map IPv4.proto
    ipv4Src := pkt.ipv4.map IPv4.src
    ipv4Dst := pkt.ipv4.map IPv4.dst
    tcpSrc := pkt.tcp.map Tcp.srcPort
    tcpDst := pkt.tcp.map Tcp.dstPort
    udpSrc := pkt.udp.map Udp.srcPort
    udpDst := pkt.udp.map Udp.dstPort
    arpSpa := pkt.arp.map Arp.srcIp }

/-- Host 1 sends host 2 six segments in a row, the last one with a comment sequence. All six are in
flight to the controller before it handles the first, and the switch has applied all it was sent
when it handles the sixth. -/
def segmentsInFlight : List NetEvent :=
  [.handshake 1, .apply 1, .apply 1, .arrive 1 (packetInFrom 2 (arpFrame 2 1 2)), .handle 1 0,
    .apply 1] ++
  List.replicate 5 (.arrive 1 (packetInFrom 1 (tcpFrame 1 2 100 80 []))) ++
  [.arrive 1 (packetInFrom 1 (tcpFrame 1 2 100 80 [0x2d, 0x2d]))] ++
  List.replicate 5 (.handle 1 0) ++ List.replicate 7 (.apply 1) ++ [.handle 1 0]

/-- A blocked record and an entry that forwards its flow. -/
theorem not_noBypass_of_mem {net : Network} {k : TrustKey} {d : ℕ} {e : FlowEntry}
    (hblocked : (net.ctl.trustTable.get? k).map TrustEntry.blocked = some true)
    (he : e ∈ net.tables d) (hk : Bypasses k e) : ¬ net.NoBypass := by
  intro h
  obtain ⟨entry, hget, hentry⟩ := Option.map_eq_some_iff.mp hblocked
  exact h k entry hget hentry d e he hk

/-- The sixth segment blocks the flow, and the switch goes on forwarding it. -/
theorem not_noBypass_segmentsInFlight :
    ¬ (run builtinCompile headerKey builtinEngine segmentsInFlight).NoBypass := by
  refine not_noBypass_of_mem (k := ⟨6, ("10.0.0.1", 100), ("10.0.0.2", 80)⟩) (d := 1)
    (e := trustFlowEntry 6 ("10.0.0.1", 100) ("10.0.0.2", 80) 3) ?_ ?_ ?_
  · decide +kernel
  · decide +kernel
  · decide +kernel

end Network

end SdnFirewall
