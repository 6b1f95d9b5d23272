import SdnFirewall.Packet.Mininet
import SdnFirewall.Properties.TrustTable

/-!
# Orphan trust entries

A trust entry on a switch should have a record behind it. The flush for a port describes its flows
twice, and the descriptions disagree: it deletes the entries towards the port, and the records with
the port at either end.
-/

namespace SdnFirewall

open Common OpenFlow Python

namespace World

/-- Every entry of the trust priority belongs to a record that is marked as installed. -/
def NoOrphans (w : World) : Prop :=
  ∀ d, ∀ e ∈ w.tables d, e.priority = TRUST_FLOW_PRIORITY →
    ∃ k r, flowKeyOfMatch? e.ofMatch = some k ∧ w.ctl.trustTable.get? k = some r ∧
      r.installed = true

/-- Of a flow whose record the event deletes, no entry is left on any connected switch. -/
def FlushesEntries (compile : ReCompile) (w : World) (ev : Event) : Prop :=
  ∀ k, w.ctl.trustTable.get? k ≠ none → (w.step compile ev).ctl.trustTable.get? k = none →
    ∀ d, w.Connected d → ∀ e ∈ (w.step compile ev).tables d,
      e.priority = TRUST_FLOW_PRIORITY → flowKeyOfMatch? e.ofMatch ≠ some k

/-- A port is blocked from which some switch holds a trust entry to another port. -/
def StrandsTrust (w : World) (ev : Event) : Prop :=
  ∃ port proto rule, ev = .rest (.addBlockedPort port proto) ∧ portRule port proto = .ok rule ∧
    ∃ d, ∃ e ∈ w.tables d, e.priority = TRUST_FLOW_PRIORITY ∧
      e.ofMatch.ipProto = some rule.2 ∧ e.ofMatch.srcPort rule.2 = some rule.1 ∧
      e.ofMatch.dstPort rule.2 ≠ some rule.1

/-- A packet that has a pair sent leaves its record marked as installed. -/
theorem installed_of_grants (compile : ReCompile) {w : World} (hw : w.Sound) {d : ℕ} {now : ℚ}
    {msg : PacketIn} {ipPkt : IPv4} {l4Pkt : L4} (hg : w.ctl.Grants d now msg ipPkt l4Pkt) :
    ∃ r, (w.step compile (.packetIn d now msg)).ctl.trustTable.get? (flowKeyOf ipPkt l4Pkt) =
      some r ∧ r.installed = true := by
  obtain ⟨hcounts, hc⟩ := exists_grants_iff.mp ⟨d, now, msg, ipPkt, l4Pkt, rfl, hg, rfl⟩
  rcases get?_handle compile hw.keyed (.packetIn d now msg) (flowKeyOf ipPkt l4Pkt) with
    ⟨hdrop, -⟩ | ⟨-, hget⟩
  · exact absurd hdrop (not_drops_of_flow? (flow?_of_counts hcounts).2)
  · rw [if_pos hcounts] at hget
    refine ⟨_, hget, ?_⟩
    have hcount := (trust_inspected? w.ctl (.packetIn d now msg) (flowKeyOf ipPkt l4Pkt)).2
    unfold TrustEntry.recorded
    split
    · assumption
    · exact decide_eq_true (hcount ▸ hc.2)

/-- A record that an event does not delete stays marked as installed. -/
theorem installed_step {compile : ReCompile} {w : World} (hw : w.Sound) {ev : Event} {k : TrustKey}
    {r : TrustEntry} (hget : w.ctl.trustTable.get? k = some r) (hr : r.installed = true)
    (hdrop : ¬ w.ctl.Drops compile k ev) :
    ∃ r', (w.step compile ev).ctl.trustTable.get? k = some r' ∧ r'.installed = true := by
  -- inspection rewrites the record of its own flow, but not its mark
  have hentry : ∃ r', w.ctl.inspected? ev k = some r' ∧ r'.installed = true := by
    unfold FirewallApp.inspected?
    cases w.ctl.dpiCall? ev with
    | none => exact ⟨r, hget, hr⟩
    | some call =>
        by_cases hk : k = call.key
        · subst hk
          refine ⟨call.after w.ctl, if_pos rfl, ?_⟩
          rw [DpiCall.after, TrustEntry.installed_inspected, entryOf_of_get?_some hget]
          exact hr
        · exact ⟨r, by simpa [hk] using hget, hr⟩
  obtain ⟨r', hr', hinst⟩ := hentry
  rcases get?_handle compile hw.keyed ev k with ⟨h, -⟩ | ⟨-, h⟩
  · exact absurd h hdrop
  · rw [hr'] at h
    split at h
    · refine ⟨_, h, ?_⟩
      rw [Option.getD_some, TrustEntry.recorded, if_pos hinst]
      exact hinst
    · exact ⟨r', h, hinst⟩

/-- Unless trust is stranded, the entries of a flow go with its record. -/
theorem not_drops_of_mem {compile : ReCompile} {w : World} (hw : w.Sound) {ev : Event}
    (hev : ¬ w.StrandsTrust ev) {d proto port : ℕ} {src dst : Endpoint}
    (hold : trustFlowEntry proto src dst port ∈ w.tables d)
    (hnew : trustFlowEntry proto src dst port ∈ (w.step compile ev).tables d) :
    ¬ w.ctl.Drops compile (trustKey proto src.1 src.2 dst.1 dst.2) ev := by
  intro hdrop
  obtain ⟨c', ms, hact, -, -, htables⟩ := step_spec compile hw.keyed ev
  have hd : d ∈ w.ctl.datapaths.keys := hw.connected_of_mem hold
  rw [htables] at hnew
  cases hdrop with
  | ip ip hok hk =>
      rw [flushIp_of_accepted hact hok hd] at hnew
      obtain ⟨hnew, hdst⟩ := FlowTable.mem_delete_any.mp hnew
      have hsrc := (FlowTable.mem_delete_any.mp hnew).2
      rcases hasIp_trustKey.mp hk with h | h
      · exact hsrc (ipv4SrcMatch_covers.mpr (by simp [h]))
      · exact hdst (ipv4DstMatch_covers.mpr (by simp [h]))
  | port portText protoText hok rule hrule hk =>
      obtain ⟨m, hm, hms⟩ := flushPort_of_accepted hact hrule hd
      rw [hms] at hnew
      have hnot := (FlowTable.mem_delete_any.mp hnew).2
      obtain ⟨rfl, hports⟩ := hasPort_trustKey.mp hk
      -- the entry is still there, so it leads to another port
      have hdst : dst.2 ≠ rule.1 := fun h => hnot ((dstPortMatch?_covers hm).mpr (by simp [h]))
      have hsrc := hports.resolve_right hdst
      exact hev ⟨portText, protoText, rule, rfl, hrule, d, _, hold, rfl, by simp, by simp [hsrc],
        by simpa using hdst⟩
  | pattern body hok =>
      rw [flush_of_accepted hact hok hd] at hnew
      rcases FlowTable.mem_add.mp hnew with ⟨hnew, -⟩ | hnew
      · exact (FlowTable.mem_delete_any.mp hnew).2 (ipv4Match_covers.mpr (by simp))
      · have hprio : (400 : ℕ) = 300 := congrArg FlowEntry.priority hnew
        exact absurd hprio (by decide)

/-- Unless trust is stranded, no event leaves an orphan. -/
theorem noOrphans_step {compile : ReCompile} {w : World} (hw : w.Sound) (hI : w.NoOrphans)
    {ev : Event} (hev : ¬ w.StrandsTrust ev) : (w.step compile ev).NoOrphans := by
  intro d e he hp
  rcases mem_step hw.keyed he with hold | hinst
  · obtain ⟨proto, src, dst, port, -, rfl⟩ := (hw.known d e hold).trust_of_priority hp
    obtain ⟨k, r, hk, hget, hr⟩ := hI d _ hold hp
    obtain rfl : trustKey proto src.1 src.2 dst.1 dst.2 = k := by simpa using hk
    obtain ⟨r', hget', hr'⟩ := installed_step hw hget hr (not_drops_of_mem hw hev hold he)
    exact ⟨_, r', hk, hget', hr'⟩
  · cases hinst with
    | miss | catchAll | refill | rateDrop | arpDrop | learned =>
        exact absurd hp (by simp [TRUST_FLOW_PRIORITY])
    | forward now msg ipPkt l4Pkt outPort hg =>
        obtain ⟨r, hget, hr⟩ := installed_of_grants compile hw hg
        exact ⟨_, r, by simp [flowKeyOf], hget, hr⟩
    | reverse now msg ipPkt l4Pkt hg =>
        obtain ⟨r, hget, hr⟩ := installed_of_grants compile hw hg
        refine ⟨_, r, ?_, hget, hr⟩
        rw [flowKeyOf, trustKey_comm]
        simp

/-- Stranded trust is an orphan: the entry survives the flush, its record does not. -/
theorem not_noOrphans_of_strandsTrust {compile : ReCompile} {w : World} (hw : w.Sound)
    {ev : Event} (hev : w.StrandsTrust ev) : ¬ (w.step compile ev).NoOrphans := by
  obtain ⟨portText, protoText, rule, rfl, hrule, d, e, he, hp, hproto, hsrc, hdst⟩ := hev
  obtain ⟨proto, src, dst, port, -, rfl⟩ := (hw.known d e he).trust_of_priority hp
  obtain rfl : proto = rule.2 := by simpa using hproto
  have hsrc' : src.2 = rule.1 := by simpa using hsrc
  have hdst' : dst.2 ≠ rule.1 := by simpa using hdst
  obtain ⟨c', ms, hact, -, -, htables⟩ :=
    step_spec compile hw.keyed (.rest (.addBlockedPort portText protoText))
  obtain ⟨m, hm, hms⟩ := flushPort_of_accepted hact hrule (hw.connected_of_mem he)
  -- the delete is for the destination port, and the entry has the port at its source
  have hleft : trustFlowEntry rule.2 src dst port ∈
      (w.step compile (.rest (.addBlockedPort portText protoText))).tables d := by
    rw [htables, hms]
    refine FlowTable.mem_delete_any.mpr ⟨he, fun hcov => hdst' ?_⟩
    simpa using ((dstPortMatch?_covers hm).mp hcov).2.2
  -- the record goes at either end
  have hdrop : w.ctl.Drops compile (trustKey rule.2 src.1 src.2 dst.1 dst.2)
      (.rest (.addBlockedPort portText protoText)) :=
    .port _ _ (accepted_addBlockedPort compile w.ctl hrule) rule hrule
      (hasPort_trustKey.mpr ⟨rfl, Or.inl hsrc'⟩)
  intro hgood
  obtain ⟨k, r, hk, hget, -⟩ := hgood d _ hleft hp
  obtain rfl : trustKey rule.2 src.1 src.2 dst.1 dst.2 = k := by simpa using hk
  rcases get?_handle compile hw.keyed (.rest (.addBlockedPort portText protoText))
    (trustKey rule.2 src.1 src.2 dst.1 dst.2) with ⟨-, hnone⟩ | ⟨hnot, -⟩
  · have hget' : (w.ctl.handle compile
        (.rest (.addBlockedPort portText protoText))).1.trustTable.get? _ = some r := hget
    rw [hnone] at hget'
    exact absurd hget' (by simp)
  · exact hnot hdrop

/-- No trust entry outlives its record, and every flush takes both along, exactly in the runs in
which no port is blocked from which a switch holds a trust entry to another port. -/
theorem noOrphans_iff (compile : ReCompile) (dpi : DPIEngine) (evs : List Event) :
    ((∀ n, (run compile dpi (evs.take n)).NoOrphans) ∧
        Along (step compile) (FlushesEntries compile) (init dpi) evs) ↔
      Along (step compile) (fun w ev => ¬ w.StrandsTrust ev) (init dpi) evs := by
  have hinit : (init dpi).Sound ∧ (init dpi).NoOrphans :=
    ⟨sound_init dpi, fun d e he => absurd he List.not_mem_nil⟩
  have hiff : (∀ n, (run compile dpi (evs.take n)).NoOrphans) ↔
      Along (step compile) (fun w ev => ¬ w.StrandsTrust ev) (init dpi) evs := by
    refine forall_take_iff_along (fun w => w.Sound ∧ w.NoOrphans) _ ?_ ?_ ?_ hinit evs
    · exact fun w ev hw hev => ⟨sound_step hw.1 ev, noOrphans_step hw.1 hw.2 hev⟩
    · exact fun w hw => hw.2
    · exact fun w ev hw hev => not_noOrphans_of_strandsTrust hw.1 (not_not.mp hev)
  refine ⟨fun h => hiff.mp h.1, fun h => ⟨hiff.mpr h, ?_⟩⟩
  -- an entry left behind would be an orphan
  refine (h.strengthen (fun w => w.Sound ∧ w.NoOrphans) ?_ hinit).imp ?_
  · exact fun w ev hw hev => ⟨sound_step hw.1 ev, noOrphans_step hw.1 hw.2 hev⟩
  · rintro w ev ⟨⟨hw, hI⟩, hev⟩ k - hnone d - e he hp hk
    obtain ⟨k', r, hk', hget, -⟩ := noOrphans_step hw hI hev d e he hp
    obtain rfl : k = k' := by simpa [hk] using hk'
    rw [hnone] at hget
    exact absurd hget (by simp)

/-- Host 1 earns the trust of a flow from port 100, and then port 100 is blocked. -/
def blockedSourcePortRun : List Event :=
  [.handshake 1, .packetIn 1 0 (packetInFrom 2 (arpFrame 2 1 2))] ++
    List.replicate 5 (Event.packetIn 1 0 (packetInFrom 1 (udpFrame 1 2 100 53))) ++
    [Event.rest (.addBlockedPort "100" "17")]

/-- The entry from port 100 is left without a record. -/
theorem not_noOrphans_blockedSourcePortRun :
    ¬ (run builtinCompile builtinEngine blockedSourcePortRun).NoOrphans := by
  intro h
  have hmem : trustFlowEntry 17 ("10.0.0.1", 100) ("10.0.0.2", 53) 3 ∈
      (run builtinCompile builtinEngine blockedSourcePortRun).tables 1 := by
    decide +kernel
  have hnone : (run builtinCompile builtinEngine blockedSourcePortRun).ctl.trustTable.get?
      (trustKey 17 "10.0.0.1" 100 "10.0.0.2" 53) = none := by
    decide +kernel
  obtain ⟨k, r, hk, hget, -⟩ := h 1 _ hmem rfl
  obtain rfl : trustKey 17 "10.0.0.1" 100 "10.0.0.2" 53 = k := by simpa using hk
  rw [hnone] at hget
  exact absurd hget (by simp)

end World

end SdnFirewall
