import SdnFirewall.Common.Scan
import SdnFirewall.System.Learning

/-!
# The trust table

What every record of a reachable trust table looks like, and what its count means: the trusted
packets of its flow since it was created, capped at the threshold. The pair of entries is sent by
the one packet that takes the count to the threshold.
-/

namespace SdnFirewall

open Common OpenFlow Python

/-! ## Trusted packets -/

/-- The event is a packet of the flow that is allowed and whose destination has been learned on its
switch. -/
def FirewallApp.Trusts (c : FirewallApp) (ev : Event) (k : TrustKey) : Prop :=
  match ev with
  | .packetIn d _ msg =>
    c.verdictOf? ev = some .allowed ∧ msg.flow? = some k ∧
      (msg.ethernet?.bind fun ethPkt =>
        ((c.learnMac d ethPkt.src msg.inPort.no).portsOf d).get? ethPkt.dst).isSome
  | _ => False

instance (c : FirewallApp) (ev : Event) (k : TrustKey) : Decidable (c.Trusts ev k) :=
  match ev with
  | .packetIn .. => inferInstanceAs (Decidable (_ ∧ _ ∧ _))
  | .handshake _ | .rest _ | .expire _ _ => inferInstanceAs (Decidable False)

/-- The packets that are counted for a flow are its trusted ones. -/
theorem counts_iff_trusts {c : FirewallApp} (h : c.Routed) (ev : Event) (k : TrustKey) :
    c.Counts ev k ↔ c.Trusts ev k := by
  cases ev with
  | handshake | rest | expire =>
      exact iff_of_false (by simp [FirewallApp.Counts, FirewallApp.counted?]) id
  | packetIn d now msg =>
      rw [counts_packetIn, FirewallApp.Trusts]
      refine and_congr_right fun hv => ?_
      constructor
      · rintro ⟨ethPkt, ipPkt, l4Pkt, heth, htarget, rfl⟩
        obtain ⟨-, hport, hip, hl4⟩ := trustTarget?_eq_some.mp htarget
        refine ⟨PacketIn.flow?_eq_some.mpr ⟨ipPkt, l4Pkt, hip, hl4, rfl⟩, ?_⟩
        rw [heth, Option.bind_some]
        exact ((h.learnMac d ethPkt.src msg.inPort).outPortOf_ne_flood d ethPkt.dst).mp hport
      · rintro ⟨hflow, hfound⟩
        obtain ⟨ipPkt, l4Pkt, hip, hl4, hk⟩ := PacketIn.flow?_eq_some.mp hflow
        obtain ⟨ethPkt, hparse, htype⟩ := Packet.ethernet_of_ipv4 hip
        have heth := ethernet?_of_verdict? (verdictOf?_eq_some.mp hv).2 hparse
        rw [heth, Option.bind_some] at hfound
        refine ⟨ethPkt, ipPkt, l4Pkt, heth, trustTarget?_eq_some.mpr ⟨htype, ?_, hip, hl4⟩, hk⟩
        exact ((h.learnMac d ethPkt.src msg.inPort).outPortOf_ne_flood d ethPkt.dst).mpr hfound

/-! ## The records -/

/-- The key of a flow: TCP or UDP, the smaller endpoint first. -/
structure TrustKey.WellFormed (k : TrustKey) : Prop where
  proto : k.proto = 6 ∨ k.proto = 17
  ordered : k.a.Le k.b

/-- What holds of every record, whatever has happened to it. -/
structure TrustEntry.WellFormed (k : TrustKey) (e : TrustEntry) : Prop where
  count_le : e.count ≤ TRUST_K
  installed_iff : e.installed = true ↔ e.count = TRUST_K
  buf_le : ∀ side, (e.buf side).length ≤ MAX_BUFFER_BYTES
  udp : k.proto = 17 → e.bufA = [] ∧ e.bufB = [] ∧ e.blocked = false

/-- A new record is well formed for every key. -/
theorem wellFormed_default (k : TrustKey) : TrustEntry.WellFormed k {} where
  count_le := Nat.zero_le _
  installed_iff := by simp [TRUST_K]
  buf_le := fun side => by cases side <;> exact Nat.zero_le _
  udp := fun _ => ⟨rfl, rfl, rfl⟩

/-- Counting a packet keeps a record well-formed. -/
theorem TrustEntry.WellFormed.recorded {k : TrustKey} {e : TrustEntry} (h : e.WellFormed k) :
    e.recorded.WellFormed k := by
  have hle := h.count_le
  have hinst := h.installed_iff
  refine ⟨?_, ?_, fun side => (e.buf_recorded side).symm ▸ h.buf_le side, fun hk => ?_⟩
  -- a record that is not installed has not reached the threshold
  · unfold TrustEntry.recorded
    split
    · exact hle
    · rename_i hnot
      have hne : e.count ≠ TRUST_K := fun hc => hnot (hinst.mpr hc)
      show e.count + 1 ≤ TRUST_K
      omega
  · unfold TrustEntry.recorded
    split
    · exact hinst
    · rename_i hnot
      have hne : e.count ≠ TRUST_K := fun hc => hnot (hinst.mpr hc)
      show decide (TRUST_K ≤ e.count + 1) = true ↔ e.count + 1 = TRUST_K
      rw [decide_eq_true_eq]
      omega
  · rw [TrustEntry.bufA_recorded, TrustEntry.bufB_recorded, TrustEntry.blocked_recorded]
    exact h.udp hk

/-- The DPI stage keeps a record well-formed; it sees TCP records only. -/
theorem TrustEntry.WellFormed.inspected {k : TrustKey} {e : TrustEntry} (h : e.WellFormed k)
    (hk : k.proto = 6) (dpi : DPIEngine) (side : Side) (payload : Bytes) :
    (e.inspected dpi side payload).WellFormed k := by
  refine ⟨?_, ?_, fun side' => ?_, fun hudp => ?_⟩
  · rw [TrustEntry.count_inspected]
    exact h.count_le
  · rw [TrustEntry.count_inspected, TrustEntry.installed_inspected]
    exact h.installed_iff
  · unfold TrustEntry.inspected
    split
    · exact h.buf_le side'
    · rw [TrustEntry.buf_fed]
      split
      · rw [TrustEntry.fed, TrustEntry.buf_setBuf_self]
        exact length_feed_le (h.buf_le side) payload
      · exact h.buf_le side'
  · omega

/-- Every record is well-formed, and so is its key. -/
def FirewallApp.TrustWellFormed (c : FirewallApp) : Prop :=
  ∀ k e, c.trustTable.get? k = some e → k.WellFormed ∧ e.WellFormed k

/-- In a well-formed table a flow without a record is well formed as well. -/
theorem FirewallApp.TrustWellFormed.entryOf {c : FirewallApp} (h : c.TrustWellFormed)
    (k : TrustKey) : (c.entryOf k).WellFormed k := by
  rw [FirewallApp.entryOf]
  cases hget : c.trustTable.get? k with
  | none => exact wellFormed_default k
  | some e => exact (h k e hget).2

/-- The key of a packet is well-formed. -/
theorem wellFormed_of_flow? {ev : Event} {k : TrustKey} (h : ev.flow? = some k) :
    k.WellFormed := by
  cases ev with
  | handshake | rest | expire => exact absurd h (by simp [Event.flow?])
  | packetIn d now msg =>
      obtain ⟨ipPkt, l4Pkt, -, hl4, rfl⟩ := PacketIn.flow?_eq_some.mp h
      exact ⟨by rw [flowKeyOf, trustKey_proto]; exact proto_of_l4Of hl4, trustKey_le ..⟩

/-- The DPI stage keeps the records well-formed. -/
theorem FirewallApp.TrustWellFormed.inspected? {c : FirewallApp} (h : c.TrustWellFormed)
    {ev : Event} {k : TrustKey} {e : TrustEntry} (he : c.inspected? ev k = some e) :
    k.WellFormed ∧ e.WellFormed k := by
  unfold FirewallApp.inspected? at he
  cases hcall : c.dpiCall? ev with
  | none =>
      rw [hcall] at he
      exact h k e he
  | some call =>
      rw [hcall] at he
      by_cases hk : k = call.key
      · obtain ⟨hflow, hproto⟩ := flow?_of_dpiCall? hcall
        subst hk
        obtain rfl : call.after c = e := by simpa using he
        exact ⟨wellFormed_of_flow? hflow, (h.entryOf _).inspected hproto _ _ _⟩
      · exact h k e (by simpa [hk] using he)

/-- Every event keeps the records well formed. -/
theorem trustWellFormed_handle {compile : ReCompile} {c : FirewallApp} (hc : c.Keyed)
    (h : c.TrustWellFormed) (ev : Event) : (c.handle compile ev).1.TrustWellFormed := by
  intro k e he
  rcases get?_handle compile hc ev k with ⟨-, hnone⟩ | ⟨-, hsome⟩
  · rw [hnone] at he
    exact absurd he (by simp)
  · rw [hsome] at he
    by_cases hcounts : c.Counts ev k
    · rw [if_pos hcounts] at he
      obtain rfl := Option.some.inj he
      refine ⟨wellFormed_of_flow? (flow?_of_counts hcounts).2, ?_⟩
      cases hget : c.inspected? ev k with
      | none => exact (wellFormed_default k).recorded
      | some e => exact (h.inspected? hget).2.recorded
    · rw [if_neg hcounts] at he
      exact h.inspected? he

/-! ## The pair of entries -/

/-- The message installs an entry of the trust priority for the flow. -/
def TrustsFlow (k : TrustKey) : OFPMsg → Prop
  | .flowMod mod =>
    mod.command = .add ∧ mod.priority = TRUST_FLOW_PRIORITY ∧ flowKeyOfMatch? mod.ofMatch = some k
  | .packetOut _ => False

instance (k : TrustKey) (m : OFPMsg) : Decidable (TrustsFlow k m) :=
  match m with
  | .flowMod _ => inferInstanceAs (Decidable (_ ∧ _ ∧ _))
  | .packetOut _ => inferInstanceAs (Decidable False)

/-- The outward action does so on some switch. -/
def Effect.TrustsFlow (k : TrustKey) : Effect → Prop
  | .sendMsg _ m => SdnFirewall.TrustsFlow k m
  | .broadcast _ => False

instance (k : TrustKey) (o : Effect) : Decidable (o.TrustsFlow k) :=
  match o with
  | .sendMsg _ m => inferInstanceAs (Decidable (SdnFirewall.TrustsFlow k m))
  | .broadcast _ => inferInstanceAs (Decidable False)

/-- Both entries of a pair are for the flow of the packet. -/
theorem trustsFlow_iff_of_mem {ipPkt : IPv4} {l4Pkt : L4} {inPort outPort : ℕ} {k : TrustKey}
    {m : OFPMsg} (hm : m ∈ (trustMods ipPkt l4Pkt inPort outPort).map OFPMsg.flowMod) :
    TrustsFlow k m ↔ flowKeyOf ipPkt l4Pkt = k := by
  simp only [trustMods, List.map_cons, List.map_nil, List.mem_cons, List.not_mem_nil,
    or_false] at hm
  rcases hm with rfl | rfl
  · simp [TrustsFlow, trustFlowMod, addFlowMod, flowKeyOf]
  · simp [TrustsFlow, trustFlowMod, addFlowMod, flowKeyOf,
      trustKey_comm _ ipPkt.dst l4Pkt.dstPort]

namespace World

/-- The controller sends an entry of the trust priority for the flow to some switch. -/
def SendsPair (compile : ReCompile) (k : TrustKey) (w : World) (ev : Event) : Prop :=
  ∃ o ∈ (w.ctl.handle compile ev).2, o.TrustsFlow k

instance (compile : ReCompile) (k : TrustKey) (w : World) (ev : Event) :
    Decidable (w.SendsPair compile k ev) :=
  inferInstanceAs (Decidable (∃ o ∈ (w.ctl.handle compile ev).2, o.TrustsFlow k))

/-- A pair is sent where some switch is sent an entry that trusts the flow. -/
theorem sendsPair_iff_sends {compile : ReCompile} {k : TrustKey} {w : World} {ev : Event} :
    w.SendsPair compile k ev ↔ ∃ d, ∃ m ∈ w.sends compile ev d, TrustsFlow k m := by
  constructor
  · rintro ⟨o, ho, htrust⟩
    cases o with
    | broadcast f => exact htrust.elim
    | sendMsg d m => exact ⟨d, m, mem_sentTo.mpr ho, htrust⟩
  · rintro ⟨d, m, hm, htrust⟩
    exact ⟨.sendMsg d m, mem_sentTo.mp hm, htrust⟩

/-- The pair is sent by exactly the packets that count for the flow and complete its record. -/
theorem sendsPair_iff {compile : ReCompile} {w : World} (hw : w.Sound) (ev : Event)
    (k : TrustKey) :
    w.SendsPair compile k ev ↔ w.ctl.Counts ev k ∧ (w.ctl.entryOf k).Completes := by
  rw [← exists_grants_iff, sendsPair_iff_sends]
  obtain ⟨c', ms, hact, -, hsent, -⟩ := step_spec compile hw.keyed ev
  constructor
  · rintro ⟨d, m, hm, htrust⟩
    rw [hsent] at hm
    cases m with
    | packetOut out => exact htrust.elim
    | flowMod mod =>
        obtain ⟨hadd, hpriority, hkey⟩ := htrust
        have he : (OFPMsg.flowMod mod).installs? = some mod.entry := if_pos hadd
        have hprio : mod.entry.priority = 400 := hpriority
        have hmatch : mod.entry.ofMatch = mod.ofMatch := rfl
        rw [← hmatch] at hkey
        generalize mod.entry = e at he hprio hkey
        -- of all that a step installs, only the pair has the trust priority
        cases installs_of_acted hact hm he with
        | miss | catchAll | refill | rateDrop | arpDrop | learned => simp at hprio
        | forward now msg ipPkt l4Pkt outPort hg =>
            refine ⟨d, now, msg, ipPkt, l4Pkt, rfl, hg, ?_⟩
            rw [flowKeyOf]
            simpa using hkey
        | reverse now msg ipPkt l4Pkt hg =>
            refine ⟨d, now, msg, ipPkt, l4Pkt, rfl, hg, ?_⟩
            rw [flowKeyOf, trustKey_comm]
            simpa using hkey
  · rintro ⟨d, now, msg, ipPkt, l4Pkt, rfl, hg, hk⟩
    obtain ⟨outPort, hms⟩ := sends_of_grants hact hg
    obtain ⟨m, hm⟩ : ∃ m, m ∈ (trustMods ipPkt l4Pkt msg.inPort.no outPort).map OFPMsg.flowMod :=
      ⟨_, List.mem_cons_self⟩
    refine ⟨d, m, ?_, (trustsFlow_iff_of_mem hm).mpr hk⟩
    rw [hsent, hms, if_pos rfl]
    exact List.mem_cons_of_mem _ hm

/-! ## Counting along a run -/

/-- The trusted packets of a flow since its record was last absent. -/
def trustedPackets (compile : ReCompile) (dpi : DPIEngine) (evs : List Event) (k : TrustKey) : ℕ :=
  tallySince (step compile) (fun w => w.ctl.trustTable.get? k = none)
    (fun w ev => w.ctl.Trusts ev k) (init dpi) 0 evs

/-- The events that sent the pair of a flow since its record was last absent. -/
def sentPairs (compile : ReCompile) (dpi : DPIEngine) (evs : List Event) (k : TrustKey) : ℕ :=
  tallySince (step compile) (fun w => w.ctl.trustTable.get? k = none)
    (fun w ev => w.SendsPair compile k ev) (init dpi) 0 evs

/-- What a record of the state after a run stands for. -/
structure Represents (compile : ReCompile) (dpi : DPIEngine) (evs : List Event) (k : TrustKey)
    (e : TrustEntry) : Prop where
  proto : k.proto = 6 ∨ k.proto = 17
  ordered : k.a.Le k.b
  count_eq : e.count = min TRUST_K (trustedPackets compile dpi evs k)
  installed_iff : e.installed = true ↔ e.count = TRUST_K
  bufA_le : e.bufA.length ≤ MAX_BUFFER_BYTES
  bufB_le : e.bufB.length ≤ MAX_BUFFER_BYTES
  udp : k.proto = 17 → e.bufA = [] ∧ e.bufB = [] ∧ e.blocked = false
  sentPairs_eq : sentPairs compile dpi evs k = if e.count = TRUST_K then 1 else 0

/-- When the pair of a flow is sent, and what is sent. -/
structure PairRule (compile : ReCompile) (w : World) (ev : Event) (k : TrustKey) : Prop where
  sends_iff : w.SendsPair compile k ev ↔ (w.ctl.entryOf k).count < TRUST_K ∧
    ((w.step compile ev).ctl.entryOf k).count = TRUST_K
  unblocked : w.SendsPair compile k ev → ((w.step compile ev).ctl.entryOf k).blocked = false
  pair : w.SendsPair compile k ev → ∃ d now msg ipPkt l4Pkt outPort,
    ev = .packetIn d now msg ∧ (Packet.parse msg.data).ipv4 = some ipPkt ∧
    l4Of (Packet.parse msg.data) ipPkt = some l4Pkt ∧ flowKeyOf ipPkt l4Pkt = k ∧
    ∀ d', (w.sends compile ev d').filter (TrustsFlow k) =
      if d' = d then (trustMods ipPkt l4Pkt msg.inPort.no outPort).map .flowMod else []

end World

/-- A well-formed record is completed by the packet that takes its count to the threshold. -/
theorem TrustEntry.WellFormed.completes_iff {k : TrustKey} {e : TrustEntry} (h : e.WellFormed k) :
    e.Completes ↔ e.count + 1 = TRUST_K := by
  have hle := h.count_le
  have hinst := h.installed_iff
  constructor
  · rintro ⟨hnot, hge⟩
    have hne : e.count ≠ TRUST_K := fun hc => by
      rw [hinst.mpr hc] at hnot
      exact absurd hnot (by simp)
    omega
  · intro hc
    refine ⟨?_, by omega⟩
    by_contra hnot
    have := hinst.mp (by simpa using hnot)
    omega

/-- One more packet counts up to the threshold. -/
theorem TrustEntry.WellFormed.count_recorded {k : TrustKey} {e : TrustEntry}
    (h : e.WellFormed k) : e.recorded.count = min TRUST_K (e.count + 1) := by
  have hle := h.count_le
  have hinst := h.installed_iff
  unfold TrustEntry.recorded
  split
  · rename_i hi
    have := hinst.mp hi
    omega
  · rename_i hnot
    have hne : e.count ≠ TRUST_K := fun hc => hnot (hinst.mpr hc)
    show e.count + 1 = _
    omega

/-- The count of a record that an event does not delete. -/
theorem count_handle {compile : ReCompile} {c : FirewallApp} (hc : c.Keyed)
    (h : c.TrustWellFormed) {ev : Event} {k : TrustKey} (hdrop : ¬ c.Drops compile k ev) :
    ((c.handle compile ev).1.entryOf k).count =
      if c.Counts ev k then min TRUST_K ((c.entryOf k).count + 1) else (c.entryOf k).count := by
  have hwf : ((c.inspected? ev k).getD {}).WellFormed k := by
    cases hget : c.inspected? ev k with
    | none => exact wellFormed_default k
    | some e => exact (h.inspected? hget).2
  rw [entryOf_handle hc hdrop, ← (trust_inspected? c ev k).2]
  split
  · exact hwf.count_recorded
  · rfl

namespace World

/-- What the tallies are proved with. -/
structure TrustSound (w : World) : Prop where
  sound : w.Sound
  routed : w.ctl.Routed
  wellFormed : w.ctl.TrustWellFormed

/-- At first there are no records and no entries. -/
theorem trustSound_init (dpi : DPIEngine) : (init dpi).TrustSound where
  sound := sound_init dpi
  routed := routed_init dpi
  wellFormed := fun k e h => absurd h (by simp [init, FirewallApp.init])

/-- Every event keeps records and entries in agreement. -/
theorem trustSound_step {compile : ReCompile} {w : World} (hw : w.TrustSound) (ev : Event) :
    (w.step compile ev).TrustSound where
  sound := sound_step hw.sound ev
  routed := routed_handle hw.sound.keyed hw.routed ev
  wellFormed := trustWellFormed_handle hw.sound.keyed hw.wellFormed ev

/-- So they agree in every reachable state. -/
theorem trustSound_run (compile : ReCompile) (dpi : DPIEngine) (evs : List Event) :
    (run compile dpi evs).TrustSound :=
  runFrom_invariant TrustSound (fun _ ev hw => trustSound_step hw ev) (trustSound_init dpi) evs

/-- The count after an event: zero without a record, else one more for a packet that counts. -/
theorem count_step (compile : ReCompile) {w : World} (hw : w.TrustSound) (ev : Event)
    (k : TrustKey) :
    ((w.step compile ev).ctl.trustTable.get? k = none ∧
        ((w.step compile ev).ctl.entryOf k).count = 0 ∧ ¬ w.SendsPair compile k ev) ∨
      (w.step compile ev).ctl.trustTable.get? k ≠ none ∧
        ((w.step compile ev).ctl.entryOf k).count =
          if w.ctl.Counts ev k then min TRUST_K ((w.ctl.entryOf k).count + 1)
          else (w.ctl.entryOf k).count := by
  by_cases hnone : (w.step compile ev).ctl.trustTable.get? k = none
  · refine Or.inl ⟨hnone, by rw [entryOf_of_get?_none hnone], ?_⟩
    rw [sendsPair_iff hw.sound]
    rintro ⟨hcounts, -⟩
    -- a packet that counts leaves a record
    rcases get?_handle compile hw.sound.keyed ev k with ⟨hdrop, -⟩ | ⟨-, hsome⟩
    · exact not_drops_of_flow? (flow?_of_counts hcounts).2 hdrop
    · rw [if_pos hcounts] at hsome
      have hnone' : (w.ctl.handle compile ev).1.trustTable.get? k = none := hnone
      rw [hsome] at hnone'
      exact absurd hnone' (by simp)
  · refine Or.inr ⟨hnone, ?_⟩
    exact count_handle hw.sound.keyed hw.wellFormed (not_drops_of_get? hw.sound.keyed hnone)

/-- The count of a record is the number of trusted packets, capped. -/
theorem count_eq_trustedPackets (compile : ReCompile) (dpi : DPIEngine) (evs : List Event)
    (k : TrustKey) :
    ((run compile dpi evs).ctl.entryOf k).count =
      min TRUST_K (trustedPackets compile dpi evs k) := by
  refine (tallySince_invariant
    (fun (w : World) n => w.TrustSound ∧ (w.ctl.entryOf k).count = min TRUST_K n) ?_
    ⟨trustSound_init dpi, rfl⟩ evs).2
  rintro w n ev ⟨hw, hn⟩
  refine ⟨trustSound_step hw ev, ?_⟩
  rcases count_step compile hw ev k with ⟨hnone, hzero, -⟩ | ⟨hsome, hcount⟩
  · rw [if_pos hnone, hzero, Nat.min_zero]
  · rw [if_neg hsome, hcount, hn]
    by_cases htrust : w.ctl.Trusts ev k
    · rw [if_pos ((counts_iff_trusts hw.routed ev k).mpr htrust), if_pos htrust]
      omega
    · rw [if_neg (mt (counts_iff_trusts hw.routed ev k).mp htrust), if_neg htrust]

/-- The pair has been sent once if the count has reached the threshold, and else not at all. -/
theorem sentPairs_eq (compile : ReCompile) (dpi : DPIEngine) (evs : List Event) (k : TrustKey) :
    sentPairs compile dpi evs k =
      if ((run compile dpi evs).ctl.entryOf k).count = TRUST_K then 1 else 0 := by
  refine (tallySince_invariant (fun (w : World) n => w.TrustSound ∧
    n = if (w.ctl.entryOf k).count = TRUST_K then 1 else 0) ?_ ⟨trustSound_init dpi, rfl⟩ evs).2
  rintro w n ev ⟨hw, rfl⟩
  refine ⟨trustSound_step hw ev, ?_⟩
  have hwf := hw.wellFormed.entryOf k
  have hle := hwf.count_le
  rcases count_step compile hw ev k with ⟨hnone, hzero, -⟩ | ⟨hsome, hcount⟩
  · rw [if_pos hnone, hzero]
    rfl
  · rw [if_neg hsome, hcount]
    -- a packet that brings the count to the threshold sends the pair, and no other packet does
    by_cases hcounts : w.ctl.Counts ev k
    · by_cases hc : (w.ctl.entryOf k).Completes
      · have := hwf.completes_iff.mp hc
        rw [if_pos ((sendsPair_iff hw.sound ev k).mpr ⟨hcounts, hc⟩), if_pos hcounts,
          if_neg (by omega), if_pos (by omega)]
      · have := mt hwf.completes_iff.mpr hc
        rw [if_neg (mt (sendsPair_iff hw.sound ev k).mp fun h => hc h.2), if_pos hcounts]
        refine if_congr ?_ rfl rfl
        omega
    · rw [if_neg (mt (sendsPair_iff hw.sound ev k).mp fun h => hcounts h.1), if_neg hcounts]

/-- The pair of a flow is sent for an unblocked record only. -/
theorem unblocked_of_sendsPair {compile : ReCompile} {w : World} (hw : w.TrustSound) {ev : Event}
    {k : TrustKey} (hsends : w.SendsPair compile k ev) :
    ((w.step compile ev).ctl.entryOf k).blocked = false := by
  obtain ⟨hcounts, -⟩ := (sendsPair_iff hw.sound ev k).mp hsends
  obtain ⟨hv, hk⟩ := flow?_of_counts hcounts
  have hkwf := (wellFormed_of_flow? hk).proto
  rcases hkwf with htcp | hudp
  · -- the DPI stage has let the packet pass
    have hopen := mt (not_allowed_of_blocked hk htcp) (not_not.mpr hv)
    rw [← blocked_handle hw.sound.keyed (not_drops_of_flow? hk)] at hopen
    exact Bool.eq_false_of_not_eq_true hopen
  · exact ((trustSound_step hw ev).wellFormed.entryOf k).udp hudp |>.2.2

/-- The pair of a flow is sent when its count reaches the threshold, for an unblocked record. -/
theorem pairRule (compile : ReCompile) {w : World} (hw : w.TrustSound) (ev : Event)
    (k : TrustKey) : w.PairRule compile ev k := by
  have hwf := hw.wellFormed.entryOf k
  have hle := hwf.count_le
  refine ⟨?_, fun hsends => ?_, fun hsends => ?_⟩
  · rcases count_step compile hw ev k with ⟨-, hzero, hnot⟩ | ⟨-, hcount⟩
    · refine iff_of_false hnot fun h => ?_
      rw [hzero] at h
      exact absurd h.2 (by decide)
    · rw [sendsPair_iff hw.sound, hwf.completes_iff, hcount]
      -- the count goes up by one at most, so it reaches the bound exactly once
      by_cases hcounts : w.ctl.Counts ev k
      · rw [if_pos hcounts, and_iff_right hcounts]
        omega
      · rw [if_neg hcounts]
        exact iff_of_false (fun h => hcounts h.1) fun h => absurd h.2 h.1.ne
  · exact unblocked_of_sendsPair hw hsends
  · obtain ⟨d, now, msg, ipPkt, l4Pkt, rfl, hg, rfl⟩ :=
      exists_grants_iff.mpr ((sendsPair_iff hw.sound ev k).mp hsends)
    obtain ⟨c', ms, hact, -, hsent, -⟩ := step_spec compile hw.sound.keyed (.packetIn d now msg)
    obtain ⟨outPort, hms⟩ := sends_of_grants hact hg
    obtain ⟨-, -, ethPkt, -, htarget, -⟩ := hg
    obtain ⟨-, -, hip, hl4⟩ := trustTarget?_eq_some.mp htarget
    refine ⟨d, now, msg, ipPkt, l4Pkt, outPort, rfl, hip, hl4, rfl, fun d' => ?_⟩
    rw [hsent, hms]
    split
    · rw [List.filter_cons_of_neg (by rw [decide_eq_true_eq]; exact id)]
      refine List.filter_eq_self.mpr fun m hm => ?_
      exact decide_eq_true ((trustsFlow_iff_of_mem hm).mpr rfl)
    · rfl

/-- Every record of a reachable state is what it stands for, and the pair of a flow is sent exactly
when the count of its record reaches the threshold. -/
theorem trustTable_run (compile : ReCompile) (dpi : DPIEngine) (evs : List Event) :
    (∀ kv ∈ (run compile dpi evs).ctl.trustTable.entries,
      Represents compile dpi evs kv.1 kv.2) ∧
    ∀ ev k, (run compile dpi evs).PairRule compile ev k := by
  have hw := trustSound_run compile dpi evs
  refine ⟨?_, fun ev k => pairRule compile hw ev k⟩
  rintro ⟨k, e⟩ hke
  have hget := Dict.get?_eq_some_iff.mpr hke
  have he : (run compile dpi evs).ctl.entryOf k = e := entryOf_of_get?_some hget
  obtain ⟨hk, hwf⟩ := hw.wellFormed k e hget
  exact
    { proto := hk.proto
      ordered := hk.ordered
      count_eq := he ▸ count_eq_trustedPackets compile dpi evs k
      installed_iff := hwf.installed_iff
      bufA_le := hwf.buf_le .a
      bufB_le := hwf.buf_le .b
      udp := hwf.udp
      sentPairs_eq := he ▸ sentPairs_eq compile dpi evs k }

end World

end SdnFirewall
