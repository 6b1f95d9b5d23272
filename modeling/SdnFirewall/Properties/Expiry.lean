import SdnFirewall.Properties.Reconnect
import SdnFirewall.Properties.TrustTable

/-!
# Trust after a timeout

The switch drops a pair of trust entries without telling the controller, whose record of the flow
stays marked as installed. A marked record counts no packets, so that the pair comes back only for a
flow whose record a flush has deleted in the meantime.
-/

namespace SdnFirewall

open Common OpenFlow Python

/-- The event is a packet-in from the switch. -/
def Event.CameInAt (d : ℕ) : Event → Prop
  | .packetIn d' _ _ => d' = d
  | _ => False

instance (d : ℕ) (ev : Event) : Decidable (ev.CameInAt d) :=
  match ev with
  | .packetIn d' _ _ => inferInstanceAs (Decidable (d' = d))
  | .handshake _ | .rest _ | .expire _ _ => inferInstanceAs (Decidable False)

namespace World

/-- The switch holds both entries of a flow. -/
def HoldsPair (w : World) (d : ℕ) (k : TrustKey) : Prop :=
  (∃ port, trustFlowEntry k.proto k.a k.b port ∈ w.tables d) ∧
    ∃ port, trustFlowEntry k.proto k.b k.a port ∈ w.tables d

/-- A timeout removes a trust entry with the match from the switch. -/
def TimesOut (d : ℕ) (m : OFPMatch) (w : World) (ev : Event) : Prop :=
  ∃ e ∈ w.tables d, ev = .expire d e ∧ e.priority = TRUST_FLOW_PRIORITY ∧ e.ofMatch = m

/-- Both entries of a flow have left the switch by timeout, and none is there at the end. -/
structure LostPair (compile : ReCompile) (dpi : DPIEngine) (evs : List Event) (d : ℕ)
    (k : TrustKey) : Prop where
  forward : Sometime (step compile) (TimesOut d (trustMatch k.proto k.a k.b)) (init dpi) evs
  reverse : Sometime (step compile) (TimesOut d (trustMatch k.proto k.b k.a)) (init dpi) evs
  gone : ∀ e ∈ (run compile dpi evs).tables d, e.priority = TRUST_FLOW_PRIORITY →
    flowKeyOfMatch? e.ofMatch ≠ some k

/-- The trusted packets of a flow in a continuation. -/
def trustedFrom (compile : ReCompile) (w : World) (k : TrustKey) (evs : List Event) : ℕ :=
  tally (step compile) (fun w ev => w.ctl.Trusts ev k) w evs

/-- The trusted packets of a flow in a continuation that come in at one switch. -/
def trustedAt (compile : ReCompile) (w : World) (d : ℕ) (k : TrustKey) (evs : List Event) : ℕ :=
  tally (step compile) (fun w ev => ev.CameInAt d ∧ w.ctl.Trusts ev k) w evs

/-- The record of the flow is not marked as installed, and the trusted packet that takes its count
to the threshold comes in at the switch. -/
def EarnsAt (compile : ReCompile) (w : World) (d : ℕ) (k : TrustKey) (evs : List Event) : Prop :=
  (w.ctl.entryOf k).installed = false ∧
    ∀ before ev after, evs = before ++ ev :: after →
      (runFrom (step compile) w before).ctl.Trusts ev k →
      (w.ctl.entryOf k).count + w.trustedFrom compile k before + 1 = TRUST_K → ev.CameInAt d

/-- Without a flush, the count goes up with the trusted packets, up to the threshold. -/
theorem count_runFrom {compile : ReCompile} {w : World} (hw : w.TrustSound) {k : TrustKey}
    {evs : List Event}
    (hflush : Along (step compile) (fun w ev => ¬ w.ctl.Drops compile k ev) w evs) :
    ((runFrom (step compile) w evs).ctl.entryOf k).count =
      min TRUST_K ((w.ctl.entryOf k).count + w.trustedFrom compile k evs) := by
  induction evs generalizing w with
  | nil =>
      have hle := (hw.wellFormed.entryOf k).count_le
      simp only [runFrom_nil, trustedFrom, tally]
      omega
  | cons ev evs ih =>
      have hcount : ((w.step compile ev).ctl.entryOf k).count = if w.ctl.Counts ev k then
          min TRUST_K ((w.ctl.entryOf k).count + 1) else (w.ctl.entryOf k).count :=
        count_handle hw.sound.keyed hw.wellFormed hflush.1
      rw [runFrom_cons, ih (trustSound_step hw ev) hflush.2, hcount]
      simp only [trustedFrom, tally]
      by_cases htrust : w.ctl.Trusts ev k
      · rw [if_pos ((counts_iff_trusts hw.routed ev k).mpr htrust), if_pos htrust]
        omega
      · rw [if_neg (mt (counts_iff_trusts hw.routed ev k).mp htrust), if_neg htrust]
        omega

/-- A packet that grants trust to a flow leaves both of its entries on its switch. -/
theorem holdsPair_of_grants {compile : ReCompile} {w : World} (hw : w.Sound) {d : ℕ} {now : ℚ}
    {msg : PacketIn} {ipPkt : IPv4} {l4Pkt : L4} (hg : w.ctl.Grants d now msg ipPkt l4Pkt) :
    (w.step compile (.packetIn d now msg)).HoldsPair d (flowKeyOf ipPkt l4Pkt) := by
  obtain ⟨c', ms, hact, -, -, htables⟩ := step_spec compile hw.keyed (.packetIn d now msg)
  obtain ⟨outPort, hms⟩ := sends_of_grants hact hg
  have htable : (w.step compile (.packetIn d now msg)).tables d =
      ((w.tables d).add (trustFlowEntry ipPkt.proto (ipPkt.src, l4Pkt.srcPort)
        (ipPkt.dst, l4Pkt.dstPort) outPort)).add (trustFlowEntry ipPkt.proto
          (ipPkt.dst, l4Pkt.dstPort) (ipPkt.src, l4Pkt.srcPort) msg.inPort.no) := by
    rw [htables, hms, if_pos rfl]
    rfl
  have hreverse : ∃ port, trustFlowEntry ipPkt.proto (ipPkt.dst, l4Pkt.dstPort)
      (ipPkt.src, l4Pkt.srcPort) port ∈ (w.step compile (.packetIn d now msg)).tables d :=
    ⟨_, htable ▸ FlowTable.mem_add_self _ _⟩
  have hforward : ∃ port, trustFlowEntry ipPkt.proto (ipPkt.src, l4Pkt.srcPort)
      (ipPkt.dst, l4Pkt.dstPort) port ∈ (w.step compile (.packetIn d now msg)).tables d := by
    by_cases hm : trustMatch ipPkt.proto (ipPkt.src, l4Pkt.srcPort) (ipPkt.dst, l4Pkt.dstPort) =
        trustMatch ipPkt.proto (ipPkt.dst, l4Pkt.dstPort) (ipPkt.src, l4Pkt.srcPort)
    · -- both ends are the same, and the second entry has replaced the first
      obtain ⟨port, hport⟩ := hreverse
      refine ⟨port, ?_⟩
      have heq : trustFlowEntry ipPkt.proto (ipPkt.src, l4Pkt.srcPort)
          (ipPkt.dst, l4Pkt.dstPort) port = trustFlowEntry ipPkt.proto
            (ipPkt.dst, l4Pkt.dstPort) (ipPkt.src, l4Pkt.srcPort) port := by
        rw [trustFlowEntry, hm]
        rfl
      exact heq ▸ hport
    · exact ⟨outPort, htable ▸ FlowTable.mem_add.mpr
        (Or.inl ⟨FlowTable.mem_add_self _ _, fun h => hm h.2⟩)⟩
  -- the key may have the endpoints the other way round
  rcases trustKey_endpoints ipPkt.proto ipPkt.src l4Pkt.srcPort ipPkt.dst l4Pkt.dstPort with h | h
  · rw [flowKeyOf, h]
    exact ⟨hforward, hreverse⟩
  · rw [flowKeyOf, h]
    exact ⟨hreverse, hforward⟩

/-- An entry of a flow that an event puts on a switch comes with a packet-in from the switch that
grants trust to the flow. -/
theorem grants_of_new {compile : ReCompile} {w : World} (hw : w.Sound) {ev : Event} {d : ℕ}
    {k : TrustKey} {e : FlowEntry} (hp : e.priority = TRUST_FLOW_PRIORITY)
    (hk : flowKeyOfMatch? e.ofMatch = some k) (hold : e ∉ w.tables d)
    (hnew : e ∈ (w.step compile ev).tables d) :
    ev.CameInAt d ∧ w.ctl.Counts ev k ∧ (w.ctl.entryOf k).Completes := by
  have hinst := (mem_step hw.keyed hnew).resolve_left hold
  cases hinst with
  | miss | catchAll | refill | rateDrop | arpDrop | learned =>
      exact absurd hp (by simp [TRUST_FLOW_PRIORITY])
  | forward now msg ipPkt l4Pkt outPort hg =>
      have hkey : flowKeyOf ipPkt l4Pkt = k := by
        rw [flowKeyOf]
        simpa using hk
      exact ⟨rfl, exists_grants_iff.mp ⟨d, now, msg, ipPkt, l4Pkt, rfl, hg, hkey⟩⟩
  | reverse now msg ipPkt l4Pkt hg =>
      have hkey : flowKeyOf ipPkt l4Pkt = k := by
        rw [flowKeyOf, trustKey_comm]
        simpa using hk
      exact ⟨rfl, exists_grants_iff.mp ⟨d, now, msg, ipPkt, l4Pkt, rfl, hg, hkey⟩⟩

/-- A flow with trusted packets has a well-formed key. -/
theorem wellFormed_of_trusts {c : FirewallApp} {ev : Event} {k : TrustKey} (h : c.Trusts ev k) :
    k.WellFormed := by
  cases ev with
  | handshake | rest | expire => exact h.elim
  | packetIn d now msg =>
      have hflow : (Event.packetIn d now msg).flow? = some k := h.2.1
      exact wellFormed_of_flow? hflow

/-- After both entries of a flow have timed out, the switch gets the pair again, in a continuation
that brings enough packets of the flow and no flush of it, exactly when the record is not marked
as installed and the packet that completes it comes in at the switch. -/
theorem retrusts_iff (compile : ReCompile) (dpi : DPIEngine) (evs evs' : List Event) (d : ℕ)
    (k : TrustKey) (hlost : LostPair compile dpi evs d k)
    (hflush : Along (step compile) (fun w ev => ¬ w.ctl.Drops compile k ev)
      (run compile dpi evs) evs')
    (hmany : TRUST_K ≤ (run compile dpi evs).trustedAt compile d k evs') :
    (∃ n, (runFrom (step compile) (run compile dpi evs) (evs'.take n)).HoldsPair d k) ↔
      (run compile dpi evs).EarnsAt compile d k evs' := by
  have hw := trustSound_run compile dpi evs
  have hgone := hlost.gone
  generalize run compile dpi evs = w at hw hflush hmany hgone
  have hsound : ∀ es, (runFrom (step compile) w es).TrustSound :=
    runFrom_invariant TrustSound (fun _ ev hw => trustSound_step hw ev) hw
  have hle := (hw.wellFormed.entryOf k).count_le
  have hinst := (hw.wellFormed.entryOf k).installed_iff
  -- the count in front of an event, and whether the event completes the record
  have hcompletes : ∀ before ev after, evs' = before ++ ev :: after →
      (((runFrom (step compile) w before).ctl.entryOf k).Completes ↔
        (w.ctl.entryOf k).count + w.trustedFrom compile k before + 1 = TRUST_K) := by
    rintro before ev after rfl
    rw [((hsound before).wellFormed.entryOf k).completes_iff,
      count_runFrom hw (along_append.mp hflush).1]
    omega
  constructor
  · rintro ⟨n, ⟨port, hmem⟩, -⟩
    have hpos : 0 < TRUST_K := by decide
    obtain ⟨_, evT, _, _, hT, _⟩ := exists_of_lt_tally (lt_of_lt_of_le hpos hmany)
    have hkey : flowKeyOfMatch? (trustFlowEntry k.proto k.a k.b port).ofMatch = some k := by
      rw [trustFlowEntry_ofMatch, flowKeyOfMatch?_trustMatch, trustKey,
        if_pos (wellFormed_of_trusts hT.2).ordered]
    -- the entry is new, so some packet from the switch has completed the record
    obtain ⟨before, ev, after, htake, hold, hnew⟩ :=
      sometime_of_runFrom (fun w : World => trustFlowEntry k.proto k.a k.b port ∈ w.tables d)
        (fun h => hgone _ h rfl hkey) hmem
    obtain ⟨hat, hcounts, hc⟩ := grants_of_new (hsound before).sound rfl hkey hold hnew
    have hsplit : evs' = before ++ ev :: (after ++ evs'.drop n) := by
      rw [← List.cons_append, ← List.append_assoc, ← htake, List.take_append_drop]
    have hcount := (hcompletes before ev _ hsplit).mp hc
    refine ⟨?_, fun before' ev' after' hsplit' htrust' hcount' => ?_⟩
    · by_contra hmarked
      have := hinst.mp (by simpa using hmarked)
      omega
    · have htrust := (counts_iff_trusts (hsound before).routed ev k).mp hcounts
      have htally : w.trustedFrom compile k before = w.trustedFrom compile k before' := by omega
      obtain rfl := eq_of_tally_eq (hsplit.symm.trans hsplit') htrust htrust' htally
      exact hat
  · rintro ⟨hopen, hlast⟩
    have hlt : (w.ctl.entryOf k).count ≠ TRUST_K := fun h => by
      rw [hinst.mpr h] at hopen
      exact absurd hopen (by simp)
    have hmany' : TRUST_K ≤ w.trustedFrom compile k evs' :=
      hmany.trans (tally_le_tally (fun _ _ h => h.2) w evs')
    obtain ⟨before, ev, after, rfl, htrust, htally⟩ :=
      exists_of_lt_tally (n := TRUST_K - 1 - (w.ctl.entryOf k).count)
        (show _ < w.trustedFrom compile k evs' by omega)
    have hcount : (w.ctl.entryOf k).count + w.trustedFrom compile k before + 1 = TRUST_K := by
      rw [trustedFrom, htally]
      omega
    have hat := hlast before ev after rfl htrust hcount
    obtain ⟨d', now, msg, ipPkt, l4Pkt, rfl, hg, rfl⟩ := exists_grants_iff.mpr
      ⟨(counts_iff_trusts (hsound before).routed ev k).mpr htrust,
        (hcompletes before ev after rfl).mpr hcount⟩
    obtain rfl : d' = d := hat
    refine ⟨before.length + 1, ?_⟩
    have htake : (before ++ Event.packetIn d' now msg :: after).take (before.length + 1) =
        before ++ [.packetIn d' now msg] := by
      rw [List.take_append, List.take_of_length_le (Nat.le_succ _), Nat.add_sub_cancel_left]
      rfl
    rw [htake, runFrom_concat]
    exact holdsPair_of_grants (hsound before).sound hg

/-- The flow of host 1 to host 2 of `trustedFlowRun`. -/
def trustedFlow : TrustKey := trustKey 17 "10.0.0.1" 100 "10.0.0.2" 53

/-- Both entries of the trusted flow time out. -/
def expiredFlowRun : List Event := trustedFlowRun ++
  [Event.expire 1 (trustFlowEntry 17 ("10.0.0.1", 100) ("10.0.0.2", 53) 3),
    Event.expire 1 (trustFlowEntry 17 ("10.0.0.2", 53) ("10.0.0.1", 100) 2)]

/-- Five more packets of the flow. -/
def laterPackets : List Event :=
  List.replicate 5 (.packetIn 1 400 (packetInFrom 1 (udpFrame 1 2 100 53)))

/-- The run has lost its pair to the timeouts. -/
theorem lostPair_expiredFlowRun :
    LostPair builtinCompile builtinEngine expiredFlowRun 1 trustedFlow where
  forward := ⟨trustedFlowRun, _, _, rfl, _, by decide +kernel, rfl, rfl, rfl⟩
  reverse := ⟨trustedFlowRun ++
      [.expire 1 (trustFlowEntry 17 ("10.0.0.1", 100) ("10.0.0.2", 53) 3)],
    _, _, rfl, _, by decide +kernel, rfl, rfl, rfl⟩
  gone := by decide +kernel

/-- None of the later packets drops the record. -/
theorem noDrops_laterPackets (w : World) :
    Along (step builtinCompile) (fun w ev => ¬ w.ctl.Drops builtinCompile trustedFlow ev) w
      laterPackets :=
  (along_of_forall_mem (step builtinCompile) (P := fun ev => ∃ d now msg, ev = .packetIn d now msg)
    (fun ev hev => ⟨1, 400, _, List.eq_of_mem_replicate hev⟩) w).imp
      (by rintro w _ ⟨d, now, msg, rfl⟩ ⟨⟩)

/-- There are enough of them to earn trust. -/
theorem manyPackets_laterPackets :
    TRUST_K ≤ (run builtinCompile builtinEngine expiredFlowRun).trustedAt builtinCompile 1
      trustedFlow laterPackets := by
  decide +kernel

/-- Trust comes back exactly if the packets earn it at a record that is not marked installed. -/
theorem retrusts_iff_expiredFlowRun :
    (∃ n, (runFrom (step builtinCompile) (run builtinCompile builtinEngine expiredFlowRun)
      (laterPackets.take n)).HoldsPair 1 trustedFlow) ↔
      (run builtinCompile builtinEngine expiredFlowRun).EarnsAt builtinCompile 1 trustedFlow
        laterPackets :=
  retrusts_iff builtinCompile builtinEngine expiredFlowRun laterPackets 1 trustedFlow
    lostPair_expiredFlowRun (noDrops_laterPackets _) manyPackets_laterPackets

/-- The flow sends five packets through the controller after the timeout, and none of them brings
the entries back. -/
theorem not_retrusts_expiredFlowRun :
    LostPair builtinCompile builtinEngine expiredFlowRun 1 trustedFlow ∧
      Along (step builtinCompile) (fun w ev => ¬ w.ctl.Drops builtinCompile trustedFlow ev)
        (run builtinCompile builtinEngine expiredFlowRun) laterPackets ∧
      TRUST_K ≤ (run builtinCompile builtinEngine expiredFlowRun).trustedAt builtinCompile 1
        trustedFlow laterPackets ∧
      ¬ ∃ n, (runFrom (step builtinCompile) (run builtinCompile builtinEngine expiredFlowRun)
        (laterPackets.take n)).HoldsPair 1 trustedFlow := by
  refine ⟨lostPair_expiredFlowRun, noDrops_laterPackets _, manyPackets_laterPackets, ?_⟩
  rintro ⟨n, ⟨port, hmem⟩, -⟩
  have hnone : ∀ n ≤ 5, ∀ e ∈ (runFrom (step builtinCompile)
      (run builtinCompile builtinEngine expiredFlowRun) (laterPackets.take n)).tables 1,
        e.priority ≠ 400 := by
    decide +kernel
  rcases Nat.le_total n 5 with hn | hn
  · exact hnone n hn _ hmem rfl
  · have htake : laterPackets.take n = laterPackets.take 5 := by
      rw [List.take_of_length_le hn, List.take_of_length_le (Nat.le_refl 5)]
    exact hnone 5 (Nat.le_refl 5) _ (htake ▸ hmem) rfl

end World

end SdnFirewall
