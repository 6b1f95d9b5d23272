import SdnFirewall.Packet.Mininet
import SdnFirewall.System.Learning

/-!
# Frames the controller does not see

The handler ignores what is neither IPv4 nor ARP, checks every ARP frame it is given, and has all
IPv4 frames sent to it. What it cannot check is what a switch forwards by itself. A learned entry
is made for the ARP frames between two stations but matches all their frames: it forwards what the
handler ignores, it forwards forged ARP frames, and it takes the IPv4 frames while a flush has the
catch-all removed. Each of the three properties is exact about when this happens.
-/

namespace SdnFirewall

open Common OpenFlow Python

namespace World

/-! ## Ignored ethertypes -/

/-- A frame that is neither IPv4 nor ARP is forwarded by no switch, and its packet-in is ignored. -/
def IgnoresOthers (compile : ReCompile) (w : World) : Prop :=
  ∀ t, t ≠ ETH_TYPE_IP → t ≠ ETH_TYPE_ARP →
    (∀ d k, k.ethType = some t → ¬ (w.tables d).Forwards k) ∧
    ∀ d now msg ethPkt, (Packet.parse msg.data).ethernet = some ethPkt → ethPkt.ethertype = t →
      w.ctl.handle compile (.packetIn d now msg) = (w.ctl, [])

end World

/-- The handler does nothing with a frame of another ethertype. -/
theorem run_packetInHandler_of_other {c : FirewallApp} {datapath : Datapath} {now : ℚ}
    {msg : PacketIn} {ethPkt : Ethernet} (heth : (Packet.parse msg.data).ethernet = some ethPkt)
    (hip : ethPkt.ethertype ≠ ETH_TYPE_IP) (harp : ethPkt.ethertype ≠ ETH_TYPE_ARP) :
    (packetInHandler datapath now msg).run c = ⟨.ok (), c, []⟩ := by
  unfold packetInHandler
  split
  · rfl
  · split
    · rfl
    · simp only [heth, filterArea, if_neg hip, if_neg harp, Prog.run_bind, Prog.run_orRaise_some,
        Prog.run_pure, Outcome.andThen_ok, List.nil_append]

namespace World

/-- In a state without an entry between two ports the other ethertypes are ignored. -/
theorem ignoresOthers_of_unbridged (compile : ReCompile) {w : World} (hw : w.LearnSound)
    (h : w.Unbridged) : w.IgnoresOthers compile := by
  intro t hip harp
  refine ⟨fun d k hk => h.not_forwards hw.sound (by rw [hk]; simpa using hip), ?_⟩
  rintro d now msg ethPkt heth rfl
  simp only [FirewallApp.handle, run_packetInHandler_of_other heth hip harp, ite_self]

/-- Frames of other ethertypes are ignored, at every moment of a run, exactly when no ARP frame of
the run is forwarded between two learned stations. -/
theorem ignoresOthers_iff (compile : ReCompile) (dpi : DPIEngine) (evs : List Event) :
    (∀ n, (run compile dpi (evs.take n)).IgnoresOthers compile) ↔
      Along (step compile) (fun w ev => ¬ w.ctl.Bridges ev) (init dpi) evs := by
  refine forall_take_iff_along (fun w => w.LearnSound ∧ w.Unbridged) _ ?_ ?_ ?_ ?_ evs
  · exact fun w ev hw hev => ⟨learnSound_step hw.1 ev, unbridged_step hw.1 hw.2 hev⟩
  · exact fun w hw => ignoresOthers_of_unbridged compile hw.1 hw.2
  · rintro w ev ⟨hw, -⟩ hev hgood
    obtain ⟨d, now, msg, ethPkt, outPort, -, -, he, hne⟩ :=
      exists_learnedEntry compile hw (not_not.mp hev)
    -- an IPv6 frame between the two stations is forwarded
    refine (hgood 0x86dd (by decide) (by decide)).1 d
      { learnedMatch msg.inPort.no ethPkt with ethType := some 0x86dd } rfl ?_
    refine (learnSound_step hw ev).forwards_of_learned he hne ?_ ?_ fun ip _ hcov => ?_
    · exact learnedMatch_covers.mpr ⟨rfl, rfl, rfl⟩
    · simp [ETH_TYPE_IP]
    · exact absurd (hcov.ethType_eq rfl) (by simp [ETH_TYPE_ARP])
  · exact ⟨learnSound_init dpi, unbridged_init dpi⟩

/-- Hosts 1 and 2 find each other. -/
def bridgedRun : List Event :=
  [.handshake 1, .packetIn 1 0 (packetInFrom 1 (arpFrame 1 2 1)),
    .packetIn 1 0 (packetInFrom 2 (arpFrame 2 1 2))]

/-- From then on host 2 reaches host 1 by IPv6. -/
theorem not_ignoresOthers_bridgedRun :
    ¬ (run builtinCompile builtinEngine bridgedRun).IgnoresOthers builtinCompile := by
  intro h
  refine (h 0x86dd (by decide) (by decide)).1 1
    { inPort := some 3, ethDst := some "00:00:00:00:00:01", ethSrc := some "00:00:00:00:00:02"
      ethType := some 0x86dd } rfl ?_
  decide +kernel

end World

/-! ## Forged ARP frames -/

/-- The event is the timeout of an entry. -/
def Event.IsTimeout : Event → Prop
  | .expire _ _ => True
  | _ => False

namespace World

/-- The fields a switch sees of an ARP frame. -/
def arpKey (inPort : IngressPort) (ethPkt : Ethernet) (arpPkt : Arp) : FlowKey :=
  { inPort := some inPort.no, ethDst := some ethPkt.dst, ethSrc := some ethPkt.src
    ethType := some ETH_TYPE_ARP, arpSpa := some arpPkt.srcIp }

/-- A forged ARP frame is forwarded by no switch and not by the controller. -/
def StopsForged (compile : ReCompile) (w : World) : Prop :=
  ∀ d inPort ethPkt arpPkt, ethPkt.ethertype = ETH_TYPE_ARP → w.ctl.Forged arpPkt →
    ¬ (w.tables d).Forwards (arpKey inPort ethPkt arpPkt) ∧
    ∀ now msg, (Packet.parse msg.data).ethernet = some ethPkt →
      (Packet.parse msg.data).arp = some arpPkt →
      ∀ d', ∀ m ∈ w.sends compile (.packetIn d now msg) d', ¬ m.Outputs

/-- In a state without an entry between two ports forged ARP frames are stopped. -/
theorem stopsForged_of_unbridged (compile : ReCompile) {w : World} (hw : w.LearnSound)
    (h : w.Unbridged) : w.StopsForged compile := by
  intro d inPort ethPkt arpPkt htype hforged
  refine ⟨h.not_forwards hw.sound (by simp [arpKey, ETH_TYPE_ARP, ETH_TYPE_IP]), ?_⟩
  intro now msg heth harp d' m hm hout
  obtain ⟨-, hv⟩ := verdictOf?_eq_some.mp (allowed_of_sends hw.sound.keyed hm hout)
  obtain ⟨arpPkt', harp', hpassed⟩ :=
    (verdict?_arp (ethernet?_of_verdict? hv heth) htype).mp hv
  obtain rfl : arpPkt' = arpPkt := by simpa [harp'] using harp
  exact hpassed hforged

/-- After a bridging event the sender's address is bound to the sender. -/
theorem arpTable_of_learnsRoute (compile : ReCompile) {w : World} (hk : w.ctl.Keyed) {d : ℕ}
    {now : ℚ} {msg : PacketIn} {ethPkt : Ethernet} (hlearn : w.ctl.LearnsRoute d now msg ethPkt) :
    ∃ arpPkt : Arp, (w.step compile (.packetIn d now msg)).ctl.arpTable.get? arpPkt.srcIp =
      some arpPkt.srcMac := by
  obtain ⟨c', ms, hact, hcore, -, -⟩ := step_spec compile hk (.packetIn d now msg)
  have htype := hlearn.ethertype
  obtain ⟨hd, hv, heth, -⟩ := hlearn
  obtain ⟨rfl, -⟩ := hact.of_allowed hd hv heth
  have htable : (w.step compile (.packetIn d now msg)).ctl.arpTable =
      (w.ctl.filterOf ⟨d⟩ now msg ethPkt).state.arpTable :=
    (congrArg (fun c => c.arpTable) hcore).trans
      (by simp [FirewallApp.core, FirewallApp.afterLearning])
  have hval := (verdict?_iff heth).mp hv
  rw [htable]
  rcases (filtered_filterOf w.ctl ⟨d⟩ now msg ethPkt).of_arp htype with
    ⟨-, hr⟩ | ⟨arpPkt, -, hr⟩
  · rw [hr] at hval
    exact absurd hval (by simp)
  · refine ⟨arpPkt, ?_⟩
    rw [hr] at hval ⊢
    cases hget : w.ctl.arpTable.get? arpPkt.srcIp with
    -- an address not yet bound is bound to the sender; a bound one was claimed by its owner
    | none => simp
    | some mac =>
        by_cases hmac : mac = arpPkt.srcMac
        · simp [hmac, hget]
        · simp [hget, hmac] at hval

/-- A timeout bridges nothing. -/
theorem not_bridges_of_isTimeout {c : FirewallApp} {ev : Event} (h : ev.IsTimeout) :
    ¬ c.Bridges ev := by
  rintro ⟨d, now, msg, -, -, -, rfl, -⟩
  exact h

/-- Where an entry leads from one port to another, a forged ARP frame is forwarded, at the latest
when the drop entry of its sender has timed out. -/
theorem not_stopsForged_of_learned {compile : ReCompile} {w : World} (hw : w.LearnSound)
    {d : ℕ} {inPort : IngressPort} {outPort : ℕ} {ethPkt : Ethernet}
    (he : learnedEntry inPort.no ethPkt outPort ∈ w.tables d) (hne : outPort ≠ inPort.no)
    (htype : ethPkt.ethertype = ETH_TYPE_ARP) {arpPkt : Arp} (hforged : w.ctl.Forged arpPkt) :
    ¬ (w.step compile (.expire d (arpDropEntry arpPkt.srcIp))).StopsForged compile := by
  intro hgood
  have hw' : (w.step compile (.expire d (arpDropEntry arpPkt.srcIp))).LearnSound :=
    learnSound_step hw _
  generalize hstep : w.step compile (.expire d (arpDropEntry arpPkt.srcIp)) = w' at hgood hw'
  have hctl : w'.ctl = w.ctl := by rw [← hstep]; rfl
  have htable : w'.tables d = (w.tables d).filter (· ≠ arpDropEntry arpPkt.srcIp) := by
    rw [← hstep]
    exact if_pos rfl
  have he' : learnedEntry inPort.no ethPkt outPort ∈ w'.tables d := by
    rw [htable, List.mem_filter]
    exact ⟨he, by simp [learnedEntry, arpDropEntry]⟩
  -- with the drop entry gone, the learned entry is the best one for the forged frame
  refine (hgood d inPort ethPkt arpPkt htype (hctl ▸ hforged)).1 ?_
  refine hw'.forwards_of_learned he' hne ?_ ?_ fun ip hmem hcov => ?_
  · exact learnedMatch_covers.mpr ⟨rfl, rfl, rfl⟩
  · simp [arpKey, ETH_TYPE_ARP, ETH_TYPE_IP]
  · obtain rfl : arpPkt.srcIp = ip := by simpa [OFPMatch.Covers, arpSpaMatch, arpKey] using hcov
    rw [htable, List.mem_filter] at hmem
    simp at hmem

/-- At every moment of the run, and after any timeouts, forged ARP frames are stopped exactly when
no ARP frame of the run is forwarded between two learned stations. -/
theorem stopsForged_iff (compile : ReCompile) (dpi : DPIEngine) (evs : List Event) :
    (∀ n ts, (∀ ev ∈ ts, ev.IsTimeout) →
      (run compile dpi (evs.take n ++ ts)).StopsForged compile) ↔
        Along (step compile) (fun w ev => ¬ w.ctl.Bridges ev) (init dpi) evs := by
  simp only [run, runFrom_append]
  refine forall_take_iff_along (fun w => w.LearnSound ∧ w.Unbridged)
    (fun w => ∀ ts, (∀ ev ∈ ts, ev.IsTimeout) →
      (runFrom (step compile) w ts).StopsForged compile) ?_ ?_ ?_ ?_ evs
  · exact fun w ev hw hev => ⟨learnSound_step hw.1 ev, unbridged_step hw.1 hw.2 hev⟩
  · intro w hw ts hts
    have hafter := (along_of_forall_mem (step compile) hts w).invariant
      (fun (w : World) => w.LearnSound ∧ w.Unbridged)
      (fun w ev hw hev => ⟨learnSound_step hw.1 ev,
        unbridged_step hw.1 hw.2 (not_bridges_of_isTimeout hev)⟩) hw
    exact stopsForged_of_unbridged compile hafter.1 hafter.2
  · rintro w ev ⟨hw, -⟩ hev hgood
    obtain ⟨d, now, msg, ethPkt, outPort, rfl, hlearn, he, hne⟩ :=
      exists_learnedEntry compile hw (not_not.mp hev)
    obtain ⟨arpPkt, hbound⟩ := arpTable_of_learnsRoute compile hw.sound.keyed hlearn
    -- the address of the sender claimed by another station
    obtain ⟨mac, hmac⟩ : ∃ mac, arpPkt.srcMac ≠ mac := by
      by_cases h : arpPkt.srcMac = "00:00:00:00:00:01"
      · exact ⟨"00:00:00:00:00:02", by simp [h]⟩
      · exact ⟨_, h⟩
    have hforged : (w.step compile (.packetIn d now msg)).ctl.Forged
        { arpPkt with srcMac := mac } := ⟨_, hbound, hmac⟩
    exact not_stopsForged_of_learned (learnSound_step hw _) he hne hlearn.ethertype hforged
      (hgood [_] (by simp [Event.IsTimeout]))
  · exact ⟨learnSound_init dpi, unbridged_init dpi⟩

/-- Host 2 then claims the address of host 1 towards host 1 itself. -/
theorem not_stopsForged_bridgedRun :
    ¬ (run builtinCompile builtinEngine bridgedRun).StopsForged builtinCompile := by
  intro h
  have hforged : (run builtinCompile builtinEngine bridgedRun).ctl.Forged
      ⟨2, "00:00:00:00:00:02", "10.0.0.1", "00:00:00:00:00:01", "10.0.0.1"⟩ :=
    ⟨"00:00:00:00:00:01", by decide +kernel, by decide⟩
  refine (h 1 (portOf 2) ⟨"00:00:00:00:00:01", "00:00:00:00:00:02", ETH_TYPE_ARP⟩ _ rfl hforged).1
    ?_
  decide +kernel

/-! ## IPv4 frames -/

/-- The entry is one direction of a trusted flow. -/
def IsTrust (e : FlowEntry) : Prop :=
  ∃ proto src dst port, (proto = 6 ∨ proto = 17) ∧ e = trustFlowEntry proto src dst port

/-- Every IPv4 frame is decided, by trust entries, drops and entries that send it to the controller
only. -/
def IPv4Guarded (t : FlowTable) : Prop :=
  ∀ k, k.ethType = some ETH_TYPE_IP → (∃ e, t.Decides k e) ∧
    ∀ e, t.Decides k e → IsTrust e ∨ e.actions = [] ∨ e.actions = [toController]

/-- The tables of the connected switches are guarded while an event is handled: before it, and after
each message it makes the controller send. A handshake has to be over first. -/
def GuardedDuring (compile : ReCompile) (w : World) (ev : Event) : Prop :=
  ∀ d, (w.Connected d →
      ∀ n, IPv4Guarded ((w.expired ev d).applyAll ((w.sends compile ev d).take n))) ∧
    ((w.step compile ev).Connected d → IPv4Guarded ((w.step compile ev).tables d))

/-- A table with the catch-all is guarded. -/
theorem guarded_of_catchAll {t : FlowTable} (hknown : ∀ e ∈ t, Known e)
    (hmem : catchAllEntry ∈ t) : IPv4Guarded t := by
  intro k hk
  have hcov : catchAllEntry.ofMatch.Covers k := by
    simp [OFPMatch.Covers, ipv4Match, hk]
  refine ⟨FlowTable.exists_decides hmem hcov, fun e he => ?_⟩
  rcases (hknown e he.mem).of_le_priority (he.le hmem hcov) with rfl | htrust
  · exact Or.inr (Or.inr rfl)
  · exact Or.inl htrust

/-- What a flush takes for the IPv4 frames before it puts the catch-all back. -/
theorem of_mem_flushed {t : FlowTable} (hknown : ∀ e ∈ t, Known e) {e : FlowEntry} {k : FlowKey}
    (he : e ∈ t.delete ipv4Match OFPP_ANY OFPG_ANY) (hcov : e.ofMatch.Covers k)
    (hk : k.ethType = some ETH_TYPE_IP) :
    e = missEntry ∨ ∃ inPort ethPkt outPort, e = learnedEntry inPort ethPkt outPort := by
  obtain ⟨he, hgone⟩ := FlowTable.mem_delete_any.mp he
  have hipv4 : e.ofMatch.ethType ≠ some ETH_TYPE_IP := by
    intro htype
    exact hgone (by simp [OFPMatch.Covers, ipv4Match, htype])
  cases hknown e he with
  | miss => exact Or.inl rfl
  | learned inPort ethPkt outPort => exact Or.inr ⟨inPort, ethPkt, outPort, rfl⟩
  | catchAll | rateDrop => exact absurd rfl hipv4
  | trust proto src dst port => exact absurd (trustMatch_ethType proto src dst) hipv4
  | arpDrop ip =>
      have harp := hcov.ethType_eq (t := ETH_TYPE_ARP) rfl
      rw [hk] at harp
      exact absurd harp (by decide)

/-- Between the two messages of a flush a table is guarded exactly when it holds no learned
entry. -/
theorem guarded_flushed_iff {w : World} (hw : w.LearnSound) {d : ℕ} (hd : w.Connected d) :
    IPv4Guarded ((w.tables d).delete ipv4Match OFPP_ANY OFPG_ANY) ↔
      ∀ inPort ethPkt outPort, learnedEntry inPort ethPkt outPort ∉ w.tables d := by
  have hknown := hw.sound.known d
  constructor
  · intro hguarded inPort ethPkt outPort he
    let k : FlowKey := { learnedMatch inPort ethPkt with ethType := some ETH_TYPE_IP }
    have hmem : learnedEntry inPort ethPkt outPort ∈
        (w.tables d).delete ipv4Match OFPP_ANY OFPG_ANY := by
      refine FlowTable.mem_delete_any.mpr ⟨he, ?_⟩
      simp [OFPMatch.Covers, ipv4Match, learnedMatch]
    -- the learned entry decides the IPv4 frames of its stations
    have hdecides : ((w.tables d).delete ipv4Match OFPP_ANY OFPG_ANY).Decides k
        (learnedEntry inPort ethPkt outPort) := by
      refine ⟨hmem, learnedMatch_covers.mpr ⟨rfl, rfl, rfl⟩, fun e he' hcov => ?_⟩
      rcases of_mem_flushed hknown he' hcov rfl with rfl | ⟨inPort', ethPkt', outPort', rfl⟩
      · exact Nat.zero_le 1
      · exact le_rfl
    rcases (hguarded k rfl).2 _ hdecides with ⟨proto, src, dst, port, -, heq⟩ | hdrop | hctl
    · exact absurd (congrArg FlowEntry.priority heq) (by simp)
    · exact absurd hdrop (by simp)
    · obtain ⟨p, rfl⟩ := hw.ports d inPort ethPkt outPort he
      simp only [learnedEntry_actions, toController, List.cons.injEq, OFPActionOutput.mk.injEq,
        and_true] at hctl
      exact p.ne_controller hctl.1
  · intro hnone k hk
    have hmiss : missEntry ∈ (w.tables d).delete ipv4Match OFPP_ANY OFPG_ANY :=
      FlowTable.mem_delete_any.mpr
        ⟨hw.sound.miss d hd, by simp [OFPMatch.Covers, ipv4Match]⟩
    refine ⟨FlowTable.exists_decides hmiss (OFPMatch.covers_any k), fun e he => ?_⟩
    rcases of_mem_flushed hknown he.mem he.covers hk with rfl | ⟨inPort, ethPkt, outPort, rfl⟩
    · exact Or.inr (Or.inr rfl)
    · exact absurd (FlowTable.mem_delete_any.mp he.mem).1 (hnone inPort ethPkt outPort)

/-- The event is an accepted signature, and some switch holds a learned entry. -/
def FlushesLearned (compile : ReCompile) (w : World) (ev : Event) : Prop :=
  ∃ body, ev = .rest (.addDpiPattern body) ∧ (Request.addDpiPattern body).Accepted compile w.ctl ∧
    ∃ d inPort ethPkt outPort, learnedEntry inPort ethPkt outPort ∈ w.tables d

/-- Every table an event goes through holds entries of the six kinds only. -/
theorem known_during (compile : ReCompile) {w : World} (hw : w.Sound) (ev : Event) (d n : ℕ) :
    ∀ e ∈ (w.expired ev d).applyAll ((w.sends compile ev d).take n), Known e := by
  intro e he
  obtain ⟨c', ms, hact, -, hsent, -⟩ := step_spec compile hw.keyed ev
  rcases FlowTable.mem_applyAll he with he | ⟨m, hm, he⟩
  · exact hw.known d e (mem_of_mem_expired he)
  · rw [hsent] at hm
    exact (installs_of_acted hact (List.mem_of_mem_take hm) he).known

/-- The tables are guarded while an event is handled, unless it is a flush in the presence of a
learned entry. -/
theorem guardedDuring_iff (compile : ReCompile) {w : World} (hw : w.LearnSound) (ev : Event) :
    w.GuardedDuring compile ev ↔ ¬ w.FlushesLearned compile ev := by
  obtain ⟨c', ms, hact, -, hsent, -⟩ := step_spec compile hw.sound.keyed ev
  constructor
  · rintro hguarded ⟨body, rfl, hacc, d, inPort, ethPkt, outPort, he⟩
    have hd := hw.sound.connected_of_mem he
    -- the table after the first of the two messages
    have hfirst := (hguarded d).1 hd 1
    rw [hsent, flush_of_accepted hact hacc hd] at hfirst
    exact (guarded_flushed_iff hw hd).mp hfirst inPort ethPkt outPort he
  · intro hflush d
    have hw' : (w.step compile ev).Sound := sound_step hw.sound ev
    refine ⟨fun hd n => ?_, fun hd => guarded_of_catchAll (hw'.known d) (hw'.catchAll d hd)⟩
    by_cases hpattern : ∃ body, ev = .rest (.addDpiPattern body) ∧
        (Request.addDpiPattern body).Accepted compile w.ctl
    · obtain ⟨body, rfl, hacc⟩ := hpattern
      have hknown := known_during compile hw.sound (.rest (.addDpiPattern body)) d n
      rw [hsent, flush_of_accepted hact hacc hd] at hknown ⊢
      match n with
      | 0 => exact guarded_of_catchAll hknown (hw.sound.catchAll d hd)
      | 1 =>
          refine (guarded_flushed_iff hw hd).mpr fun inPort ethPkt outPort he => ?_
          exact hflush ⟨body, rfl, hacc, d, inPort, ethPkt, outPort, he⟩
      | n + 2 =>
          refine guarded_of_catchAll hknown ?_
          rw [List.take_of_length_le (by simp)]
          exact FlowTable.mem_add_self _ _
    · refine guarded_of_catchAll (known_during compile hw.sound ev d n) ?_
      refine FlowTable.mem_applyAll_of_spares
        (mem_expired_of_permanent (hw.sound.catchAll d hd) rfl rfl) fun m hm => ?_
      rw [hsent] at hm
      exact spares_catchAll hact (fun body hev hacc => hpattern ⟨body, hev, hacc⟩)
        (List.mem_of_mem_take hm)

/-- The tables are guarded throughout a run exactly when none of its flushes meets a learned
entry. -/
theorem guarded_iff (compile : ReCompile) (dpi : DPIEngine) (evs : List Event) :
    Along (step compile) (GuardedDuring compile) (init dpi) evs ↔
      Along (step compile) (fun w ev => ¬ w.FlushesLearned compile ev) (init dpi) evs :=
  along_congr LearnSound (fun _ ev hw => learnSound_step hw ev)
    (fun _ ev hw => guardedDuring_iff compile hw ev) (learnSound_init dpi) evs

def markerPattern : Event :=
  .rest (.addDpiPattern (.ok (.obj [("name", .str "MARKER"), ("pattern", .str "xyz")])))

/-- A signature is added after hosts 1 and 2 have found each other: between the two messages of the
flush host 2 reaches host 1 by IPv4. -/
theorem not_guarded_markerPattern :
    ¬ Along (step builtinCompile) (GuardedDuring builtinCompile) (init builtinEngine)
      (bridgedRun ++ [markerPattern]) := by
  intro h
  have hconn : 1 ∈ (run builtinCompile builtinEngine bridgedRun).ctl.datapaths.keys := by
    decide +kernel
  have hfirst := (h.at 1).1 hconn 1
  have hentry := (hfirst
    { inPort := some 3, ethDst := some "00:00:00:00:00:01", ethSrc := some "00:00:00:00:00:02"
      ethType := some ETH_TYPE_IP } rfl).2
    (learnedEntry 3 ⟨"00:00:00:00:00:01", "00:00:00:00:00:02", ETH_TYPE_ARP⟩ 2) (by decide +kernel)
  rcases hentry with ⟨proto, src, dst, port, -, heq⟩ | hdrop | hctl
  · exact absurd (congrArg FlowEntry.priority heq) (by simp)
  · exact absurd hdrop (by simp)
  · exact absurd hctl (by decide)

end World

end SdnFirewall
