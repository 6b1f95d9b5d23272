import SdnFirewall.Packet.Mininet
import SdnFirewall.System.Learning

/-!
# The two drop entries

The drop of a rate-limited source stands below the catch-all and never decides a frame. The drop of
forged ARP frames decides all ARP frames of the address, those of its owner included.
-/

namespace SdnFirewall

open Common OpenFlow Python

namespace World

/-! ## The drop of a rate-limited source -/

/-- The table of a switch once it has applied the first `n` messages of an event. -/
def tableDuring (compile : ReCompile) (w : World) (ev : Event) (d n : ℕ) : FlowTable :=
  (w.expired ev d).applyAll ((w.sends compile ev d).take n)

/-- The entries of a table an event goes through were there before or are installed by it. -/
theorem mem_tableDuring {compile : ReCompile} {w : World} (hw : w.Sound) {ev : Event} {d n : ℕ}
    {e : FlowEntry} (he : e ∈ w.tableDuring compile ev d n) :
    e ∈ w.tables d ∨ Installs w.ctl d ev e := by
  obtain ⟨c', ms, hact, -, hsent, -⟩ := step_spec compile hw.keyed ev
  rcases FlowTable.mem_applyAll he with he | ⟨m, hm, he⟩
  · exact Or.inl (mem_of_mem_expired he)
  · rw [hsent] at hm
    exact Or.inr (installs_of_acted hact (List.mem_of_mem_take hm) he)

/-- A switch that drops a source also holds the catch-all. -/
theorem catchAll_mem_of_rateDrop {compile : ReCompile} {w : World} (hw : w.Sound) {ev : Event}
    {d n : ℕ} {ip : String} (h : rateDropEntry ip ∈ w.tableDuring compile ev d n) :
    catchAllEntry ∈ w.tableDuring compile ev d n := by
  obtain ⟨c', ms, hact, -, hsent, -⟩ := step_spec compile hw.keyed ev
  have hd : d ∈ w.ctl.datapaths.keys := by
    rcases mem_tableDuring hw h with h | h
    · exact hw.connected_of_mem h
    · cases h with
      | rateDrop _ _ _ hd => exact hd
  rw [tableDuring, hsent] at h ⊢
  by_cases hpattern : ∃ body, ev = .rest (.addDpiPattern body) ∧
      (Request.addDpiPattern body).Accepted compile w.ctl
  · obtain ⟨body, rfl, hacc⟩ := hpattern
    rw [flush_of_accepted hact hacc hd] at h ⊢
    match n with
    | 0 => exact hw.catchAll d hd
    | 1 =>
        -- the flush has taken the drop entry as well
        exact absurd (ipv4Match_covers.mpr rfl) (FlowTable.mem_delete_any.mp h).2
    | n + 2 =>
        rw [List.take_of_length_le (by simp)]
        exact FlowTable.mem_add_self _ _
  · refine FlowTable.mem_applyAll_of_spares
      (mem_expired_of_permanent (hw.catchAll d hd) rfl rfl) fun m hm => ?_
    exact spares_catchAll hact (fun body hev hacc => hpattern ⟨body, hev, hacc⟩)
      (List.mem_of_mem_take hm)

/-- An IPv4 frame that no trust entry matches is sent to the controller by the catch-all. -/
theorem sendsToController_of_catchAll {t : FlowTable} (hknown : ∀ e ∈ t, Known e)
    (hcatch : catchAllEntry ∈ t) {k : FlowKey} (hk : k.ethType = some ETH_TYPE_IP)
    (htrust : ∀ e ∈ t, e.priority = TRUST_FLOW_PRIORITY → ¬ e.ofMatch.Covers k) :
    t.SendsToController k := by
  have hcov : catchAllEntry.ofMatch.Covers k := ipv4Match_covers.mpr hk
  refine ⟨catchAllEntry, hcatch, ⟨hcatch, hcov, fun e he hek => ?_⟩, by simp [toController]⟩
  by_contra hlt
  rcases (hknown e he).of_le_priority (Nat.le_of_lt (not_le.mp hlt)) with
    rfl | ⟨proto, src, dst, port, -, rfl⟩
  · exact hlt le_rfl
  · exact htrust _ he rfl hek

/-- In no table a switch goes through does the drop of a rate-limited source take effect: it decides
no frame, frames without a trust entry reach the controller, and so not all frames of the source
are dropped. -/
theorem rateDrop_never (compile : ReCompile) (dpi : DPIEngine) (evs : List Event) (ev : Event)
    (d n : ℕ) (ip : String)
    (h : rateDropEntry ip ∈ (run compile dpi evs).tableDuring compile ev d n) :
    let t := (run compile dpi evs).tableDuring compile ev d n
    (∀ k, ¬ t.Decides k (rateDropEntry ip)) ∧
      (∀ k, k.ethType = some ETH_TYPE_IP → k.ipv4Src = some ip →
        (∀ e ∈ t, e.priority = TRUST_FLOW_PRIORITY → ¬ e.ofMatch.Covers k) →
          t.SendsToController k) ∧
      ¬ ∀ k, k.ethType = some ETH_TYPE_IP → k.ipv4Src = some ip → t.Drops k := by
  have hw := sound_run compile dpi evs
  have hcatch := catchAll_mem_of_rateDrop hw h
  have hknown : ∀ e ∈ (run compile dpi evs).tableDuring compile ev d n, Known e := by
    intro e he
    rcases mem_tableDuring hw he with he | he
    · exact hw.known d e he
    · exact he.known
  refine ⟨fun k hdec => ?_, fun k hk _ htrust => ?_, fun hdrops => ?_⟩
  -- the catch-all matches the same frame at a higher priority
  · obtain ⟨hk, -⟩ := ipv4SrcMatch_covers.mp hdec.covers
    exact FlowTable.not_decides_of_lt hcatch (ipv4Match_covers.mpr hk) (by simp) hdec
  · exact sendsToController_of_catchAll hknown hcatch hk htrust
  · -- a trust entry names TCP or UDP, so a frame of another protocol shows it
    refine (hdrops { ethType := some ETH_TYPE_IP, ipv4Src := some ip } rfl rfl).2
      (sendsToController_of_catchAll hknown hcatch rfl fun e he hp hcov => ?_)
    obtain ⟨proto, src, dst, port, -, rfl⟩ := (hknown e he).trust_of_priority hp
    have hproto := hcov.2.2.2.2.1
    rw [trustFlowEntry_ofMatch, trustMatch_ipProto, fieldCovers_some] at hproto
    exact absurd hproto (by simp)

/-- A limit of one packet, which the second packet of host 1 exceeds. -/
def rateLimitedRun : List Event :=
  [.handshake 1, .rest (.setRateLimit (.ok (.obj [("limit", .int 1)]))),
    .packetIn 1 0 (packetInFrom 1 (udpFrame 1 2 100 53))]

def secondPacket : Event := .packetIn 1 0 (packetInFrom 1 (udpFrame 1 2 100 53))

/-- The drop entry of a source that has exceeded its limit decides nothing. -/
theorem rateDrop_never_rateLimitedRun :
    ¬ (run builtinCompile builtinEngine rateLimitedRun |>.tableDuring builtinCompile secondPacket
      1 1).Decides { ethType := some ETH_TYPE_IP, ipv4Src := some "10.0.0.1" }
        (rateDropEntry "10.0.0.1") :=
  (rateDrop_never builtinCompile builtinEngine rateLimitedRun secondPacket 1 1 "10.0.0.1"
    (by decide +kernel)).1 _

/-- The drop entry is there, and the source's frames still go to the controller. -/
theorem not_drops_rateLimitedRun :
    let t := (run builtinCompile builtinEngine (rateLimitedRun ++ [secondPacket])).tables 1
    rateDropEntry "10.0.0.1" ∈ t ∧
      ¬ ∀ k, k.ethType = some ETH_TYPE_IP → k.ipv4Src = some "10.0.0.1" → t.Drops k := by
  refine ⟨by decide +kernel, fun h => ?_⟩
  have hctl : (run builtinCompile builtinEngine (rateLimitedRun ++ [secondPacket])).tables 1
      |>.SendsToController { ethType := some ETH_TYPE_IP, ipv4Src := some "10.0.0.1" } := by
    decide +kernel
  exact (h _ rfl rfl).2 hctl

/-! ## The drop of forged ARP frames -/

/-- ARP frames that name their sender as it is bound are passed on: nothing but the miss entry or a
learned entry decides them, and the controller allows them. -/
def HearsOwners (w : World) : Prop :=
  ∀ ip mac, w.ctl.arpTable.get? ip = some mac → ∀ d, w.Connected d →
    (∀ k : FlowKey, k.ethType = some ETH_TYPE_ARP → k.arpSpa = some ip →
      (∃ e, (w.tables d).Decides k e) ∧ ∀ e, (w.tables d).Decides k e →
        e = missEntry ∨ ∃ inPort ethPkt outPort, e = learnedEntry inPort ethPkt outPort) ∧
    ∀ now msg ethPkt arpPkt, msg.ethernet? = some ethPkt → ethPkt.ethertype = ETH_TYPE_ARP →
      (Packet.parse msg.data).arp = some arpPkt → arpPkt.srcIp = ip → arpPkt.srcMac = mac →
      w.ctl.verdict? ⟨d⟩ now msg = some .allowed

/-- The event is an ARP frame that names its sender otherwise than it is bound. -/
def ForgedFrame (w : World) (ev : Event) : Prop :=
  ∃ d now msg ethPkt arpPkt, ev = .packetIn d now msg ∧ w.Connected d ∧
    msg.ethernet? = some ethPkt ∧ ethPkt.ethertype = ETH_TYPE_ARP ∧
    (Packet.parse msg.data).arp = some arpPkt ∧ w.ctl.Forged arpPkt

/-- A forged frame is rejected, and the switch told to drop the ARP frames of the address. -/
theorem arpDrop_of_forgedFrame (compile : ReCompile) {w : World} {ev : Event}
    (hev : w.ForgedFrame ev) :
    ∃ d ip mac, w.Connected d ∧ w.ctl.arpTable.get? ip = some mac ∧
      (w.step compile ev).ctl.arpTable.get? ip = some mac ∧
      arpDropEntry ip ∈ (w.step compile ev).tables d := by
  obtain ⟨d, now, msg, ethPkt, arpPkt, rfl, hd, heth, htype, harp, mac, hbound, hne⟩ := hev
  have hfilter : w.ctl.filterOf ⟨d⟩ now msg ethPkt = ⟨.ok (some .arpSpoof), w.ctl,
      [.sendMsg d (.flowMod (arpDropMod arpPkt.srcIp))]⟩ := by
    rcases (filtered_filterOf w.ctl ⟨d⟩ now msg ethPkt).of_arp htype with
      ⟨hnone, -⟩ | ⟨arpPkt', harp', hr⟩
    · rw [harp] at hnone
      exact absurd hnone (by simp)
    · obtain rfl : arpPkt = arpPkt' := by simpa [harp] using harp'
      rw [hr, hbound]
      simp only [if_neg hne]
  have hv : w.ctl.verdict? ⟨d⟩ now msg = some .arpSpoof := by
    rw [verdict?_iff heth, hfilter]
  obtain ⟨ethPkt', heth', hcore, out, hout, hquiet⟩ := packetIn_rejected hv (by decide)
  obtain rfl : ethPkt = ethPkt' := by simpa [heth] using heth'
  have hhandle : w.ctl.handle compile (.packetIn d now msg) =
      (((packetInHandler ⟨d⟩ now msg).run w.ctl).state,
        ((packetInHandler ⟨d⟩ now msg).run w.ctl).out) := if_pos hd
  refine ⟨d, arpPkt.srcIp, mac, hd, hbound, ?_, ?_⟩
  · have harpTable := congrArg (fun c => c.arpTable) hcore
    -- the forged claim does not replace the binding
    have hlearned : (w.ctl.afterLearning ⟨d⟩ now msg ethPkt).arpTable = w.ctl.arpTable := by
      rw [FirewallApp.afterLearning, hfilter]
      rfl
    have hstep : (w.step compile (.packetIn d now msg)).ctl.arpTable = w.ctl.arpTable := by
      rw [step, hhandle]
      exact harpTable.trans hlearned
    rw [hstep]
    exact hbound
  · have hsends : w.sends compile (.packetIn d now msg) d =
        [.flowMod (arpDropMod arpPkt.srcIp)] := by
      rw [sends, hhandle, hout, hfilter, sentTo_append, sentTo_eq_nil_of_broadcast hquiet]
      simp
    show arpDropEntry arpPkt.srcIp ∈ (w.expired _ d).applyAll (w.sends compile _ d)
    rw [hsends]
    exact FlowTable.mem_add_self _ _

/-- An ARP drop entry is installed for a forged frame only. -/
theorem forgedFrame_of_arpSpoof {w : World} {d : ℕ} {now : ℚ} {msg : PacketIn}
    (hd : w.Connected d) (hv : w.ctl.verdict? ⟨d⟩ now msg = some .arpSpoof) :
    w.ForgedFrame (.packetIn d now msg) := by
  obtain ⟨ethPkt, heth, hval⟩ := verdict?_eq_some.mp hv
  have hf := filtered_filterOf w.ctl ⟨d⟩ now msg ethPkt
  have htype := hf.ethertype_of_arpSpoof hval
  rcases hf.of_arp htype with ⟨-, hr⟩ | ⟨arpPkt, harp, hr⟩
  · rw [hr] at hval
    exact absurd hval (by simp)
  · refine ⟨d, now, msg, ethPkt, arpPkt, rfl, hd, heth, htype, harp, ?_⟩
    by_contra hforged
    have hallowed : w.ctl.verdict? ⟨d⟩ now msg = some .allowed :=
      (verdict?_arp heth htype).mpr ⟨arpPkt, harp, hforged⟩
    rw [hv] at hallowed
    exact absurd hallowed (by decide)

/-- No switch drops ARP frames. -/
def NoArpDrop (w : World) : Prop := ∀ d ip, arpDropEntry ip ∉ w.tables d

/-- An event without a forged claim installs no drop entry for ARP. -/
theorem noArpDrop_step {compile : ReCompile} {w : World} (hw : w.Sound) (hI : w.NoArpDrop)
    {ev : Event} (hev : ¬ w.ForgedFrame ev) : (w.step compile ev).NoArpDrop := by
  intro d ip he
  rcases mem_step hw.keyed he with he | hinst
  · exact hI d ip he
  · generalize heq : arpDropEntry ip = e at hinst
    cases hinst with
    | arpDrop now msg ip' hd hv => exact hev (forgedFrame_of_arpSpoof hd hv)
    | miss | catchAll | refill | learned | forward | reverse =>
        exact absurd (congrArg FlowEntry.priority heq) (by simp)
    | rateDrop now msg ip' =>
        have htype := congrArg (fun e => e.ofMatch.ethType) heq
        exact absurd htype (by simp [arpSpaMatch, ipv4SrcMatch, ETH_TYPE_ARP, ETH_TYPE_IP])

/-- Without ARP drops owners are heard. -/
theorem hearsOwners_of_noArpDrop {w : World} (hw : w.Sound) (hI : w.NoArpDrop) :
    w.HearsOwners := by
  intro ip mac hbound d hd
  refine ⟨fun k hk hspa => ⟨?_, fun e hdec => ?_⟩, ?_⟩
  · exact FlowTable.exists_decides (hw.miss d hd) (OFPMatch.covers_any k)
  · have hother : k.ethType ≠ some ETH_TYPE_IP := by rw [hk]; decide
    rcases (hw.known d e hdec.mem).of_covers_other hdec.covers hother with h | h | ⟨ip', rfl, -⟩
    · exact Or.inl h
    · exact Or.inr h
    · exact absurd hdec.mem (hI d ip')
  · rintro now msg ethPkt arpPkt heth htype harp rfl rfl
    refine (verdict?_arp heth htype).mpr ⟨arpPkt, harp, ?_⟩
    rintro ⟨mac, hmac, hne⟩
    rw [hbound] at hmac
    exact hne (Option.some.inj hmac).symm

/-- Owners are heard, at every moment of a run, exactly when no forged ARP frame comes in. -/
theorem hearsOwners_iff (compile : ReCompile) (dpi : DPIEngine) (evs : List Event) :
    (∀ n, (run compile dpi (evs.take n)).HearsOwners) ↔
      Along (step compile) (fun w ev => ¬ w.ForgedFrame ev) (init dpi) evs := by
  refine forall_take_iff_along (fun w => w.Sound ∧ w.NoArpDrop) _ ?_ ?_ ?_ ?_ evs
  · exact fun w ev hw hev => ⟨sound_step hw.1 ev, noArpDrop_step hw.1 hw.2 hev⟩
  · exact fun w hw => hearsOwners_of_noArpDrop hw.1 hw.2
  · rintro w ev ⟨hw, -⟩ hev hgood
    obtain ⟨d, ip, mac, hd, -, hbound, hdrop⟩ :=
      arpDrop_of_forgedFrame compile (not_not.mp hev)
    have hw' : (w.step compile ev).Sound := sound_step hw ev
    -- an ARP frame of the address, whoever sent it
    obtain ⟨-, hdecides⟩ := (hgood ip mac hbound d (hd.step hw.keyed ev)).1
      { ethType := some ETH_TYPE_ARP, arpSpa := some ip } rfl rfl
    have hdrops : ((w.step compile ev).tables d).Decides
        { ethType := some ETH_TYPE_ARP, arpSpa := some ip } (arpDropEntry ip) := by
      refine ⟨hdrop, by simp [OFPMatch.Covers, arpSpaMatch], fun e he hcov => ?_⟩
      rcases (hw'.known d e he).of_covers_other hcov (by simp [ETH_TYPE_ARP, ETH_TYPE_IP]) with
        rfl | ⟨inPort, ethPkt, outPort, rfl⟩ | ⟨ip', rfl, -⟩
      · exact Nat.zero_le _
      · exact (by decide : 1 ≤ 200)
      · exact le_rfl
    rcases hdecides _ hdrops with h | ⟨inPort, ethPkt, outPort, h⟩
    · exact absurd (congrArg FlowEntry.priority h) (by simp)
    · exact absurd (congrArg FlowEntry.priority h) (by simp)
  · exact ⟨sound_init dpi, fun d ip => List.not_mem_nil⟩

/-- Host 1 is bound to its station, and then host 3 claims its address. -/
def claimedAddressRun : List Event :=
  [.handshake 1, .packetIn 1 0 (packetInFrom 1 (arpFrame 1 2 1)),
    .packetIn 1 0 (packetInFrom 3 (arpFrame 3 2 1))]

/-- The ARP frames of host 1 are dropped at the switch. -/
theorem not_hearsOwners_claimedAddressRun :
    ¬ (run builtinCompile builtinEngine claimedAddressRun).HearsOwners := by
  intro h
  have hbound : (run builtinCompile builtinEngine claimedAddressRun).ctl.arpTable.get? "10.0.0.1" =
      some "00:00:00:00:00:01" := by
    decide +kernel
  have hconn : 1 ∈ (run builtinCompile builtinEngine claimedAddressRun).ctl.datapaths.keys := by
    decide +kernel
  rcases ((h _ _ hbound 1 hconn).1 { ethType := some ETH_TYPE_ARP, arpSpa := some "10.0.0.1" }
    rfl rfl).2 (arpDropEntry "10.0.0.1") (by decide +kernel) with
    heq | ⟨inPort, ethPkt, outPort, heq⟩
  · exact absurd (congrArg FlowEntry.priority heq) (by simp)
  · exact absurd (congrArg FlowEntry.priority heq) (by simp)

end World

end SdnFirewall
