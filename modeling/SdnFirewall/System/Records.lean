import SdnFirewall.System.World

/-!
# What an event does to a trust record

The trust table is written by the DPI stage, by the counting of a forwarded packet and by the three
flushes. For one flow this comes to one equation: a request deletes its record, or the record goes
through the DPI stage and is then counted. The invariants of the trust table are derived from it.
-/

namespace SdnFirewall

open Common OpenFlow Python

/-! ## Records one by one -/

@[simp] theorem TrustEntry.count_inspected (e : TrustEntry) (dpi : DPIEngine) (side : Side)
    (payload : Bytes) : (e.inspected dpi side payload).count = e.count := by
  unfold TrustEntry.inspected
  split <;> simp [TrustEntry.fed]

@[simp] theorem TrustEntry.installed_inspected (e : TrustEntry) (dpi : DPIEngine) (side : Side)
    (payload : Bytes) : (e.inspected dpi side payload).installed = e.installed := by
  unfold TrustEntry.inspected
  split <;> simp [TrustEntry.fed]

/-- Feeding one direction leaves the other as it is. -/
theorem TrustEntry.buf_fed (e : TrustEntry) (side side' : Side) (payload : Bytes) (b : Bool) :
    TrustEntry.buf { e.fed side payload with blocked := b } side' =
      if side' = side then (e.fed side payload).buf side else e.buf side' := by
  cases side <;> cases side' <;> rfl

/-- A blocked record goes through the DPI stage unchanged. -/
theorem TrustEntry.inspected_of_blocked {e : TrustEntry} (h : e.blocked = true) (dpi : DPIEngine)
    (side : Side) (payload : Bytes) : e.inspected dpi side payload = e :=
  if_pos (Or.inl h)

@[simp] theorem TrustEntry.blocked_recorded (e : TrustEntry) : e.recorded.blocked = e.blocked := by
  unfold TrustEntry.recorded
  split <;> rfl

@[simp] theorem TrustEntry.bufA_recorded (e : TrustEntry) : e.recorded.bufA = e.bufA := by
  unfold TrustEntry.recorded
  split <;> rfl

@[simp] theorem TrustEntry.bufB_recorded (e : TrustEntry) : e.recorded.bufB = e.bufB := by
  unfold TrustEntry.recorded
  split <;> rfl

@[simp] theorem TrustEntry.buf_recorded (e : TrustEntry) (side : Side) :
    e.recorded.buf side = e.buf side := by
  cases side
  · exact e.bufA_recorded
  · exact e.bufB_recorded

/-- Counting changes the record of the counted flow only. -/
theorem get?_recordFor (c : FirewallApp) (target : Option (IPv4 × L4)) (k : TrustKey) :
    (c.recordFor target).trustTable.get? k =
      if target.map (fun t => flowKeyOf t.1 t.2) = some k then some (c.entryOf k).recorded
      else c.trustTable.get? k := by
  cases target with
  | none => simp [FirewallApp.recordFor]
  | some target =>
      simp only [FirewallApp.recordFor, FirewallApp.setTrust_trustTable, Dict.get?_set,
        Option.map_some, Option.some.injEq]
      by_cases hk : k = flowKeyOf target.1 target.2
      · rw [if_pos hk, if_pos hk.symm, hk]
      · rw [if_neg hk, if_neg (Ne.symm hk)]

/-- The record of a flow behind the filtering area: the DPI stage has seen the frame, if it got
there. -/
theorem get?_afterLearning (c : FirewallApp) (datapath : Datapath) (now : ℚ) (msg : PacketIn)
    (ethPkt : Ethernet) (k : TrustKey) :
    (c.afterLearning datapath now msg ethPkt).trustTable.get? k =
      match c.dpiCallOf now msg.data ethPkt with
      | none => c.trustTable.get? k
      | some call => if k = call.key then some (call.after c) else c.trustTable.get? k := by
  have hf := filtered_filterOf c datapath now msg ethPkt
  rw [FirewallApp.afterLearning, FirewallApp.learnMac_trustTable]
  cases hcall : c.dpiCallOf now msg.data ethPkt with
  | none => rw [hf.trustTable_of_no_dpiCall hcall]
  | some call =>
      obtain ⟨-, hcore, -⟩ := hf.of_dpiCall hcall
      have h : (c.filterOf datapath now msg ethPkt).state.trustTable =
          c.trustTable.set call.key (call.after c) := by
        rw [← trustTable_clocked c now call.ipPkt.src]
        exact congrArg (fun s => s.trustTable) hcore
      rw [h, Dict.get?_set]

/-- Inspection changes the record of the inspected flow only. -/
theorem entryOf_afterLearning (c : FirewallApp) (datapath : Datapath) (now : ℚ) (msg : PacketIn)
    (ethPkt : Ethernet) (k : TrustKey) :
    (c.afterLearning datapath now msg ethPkt).entryOf k =
      match c.dpiCallOf now msg.data ethPkt with
      | none => c.entryOf k
      | some call => if k = call.key then call.after c else c.entryOf k := by
  rw [FirewallApp.entryOf, get?_afterLearning]
  cases c.dpiCallOf now msg.data ethPkt with
  | none => rfl
  | some call => by_cases hk : k = call.key <;> simp [hk, FirewallApp.entryOf]

/-- The filtering area grants no trust. -/
theorem completes_afterLearning (c : FirewallApp) (datapath : Datapath) (now : ℚ)
    (msg : PacketIn) (ethPkt : Ethernet) (k : TrustKey) :
    ((c.afterLearning datapath now msg ethPkt).entryOf k).Completes ↔ (c.entryOf k).Completes := by
  rw [entryOf_afterLearning]
  cases c.dpiCallOf now msg.data ethPkt with
  | none => rfl
  | some call =>
      by_cases hk : k = call.key
      · subst hk
        simp only [if_true, TrustEntry.Completes, DpiCall.after, TrustEntry.count_inspected,
          TrustEntry.installed_inspected]
      · simp only [if_neg hk]

/-! ## The flow of a packet -/

/-- The key of the flow a packet-in belongs to, if it is a parsed TCP or UDP packet. -/
def PacketIn.flow? (msg : PacketIn) : Option TrustKey :=
  (Packet.parse msg.data).ipv4.bind fun ipPkt =>
    (l4Of (Packet.parse msg.data) ipPkt).map (flowKeyOf ipPkt)

/-- The flow of a packet-in is the key of its IPv4 and transport headers. -/
theorem PacketIn.flow?_eq_some {msg : PacketIn} {k : TrustKey} :
    msg.flow? = some k ↔ ∃ ipPkt l4Pkt, (Packet.parse msg.data).ipv4 = some ipPkt ∧
      l4Of (Packet.parse msg.data) ipPkt = some l4Pkt ∧ flowKeyOf ipPkt l4Pkt = k := by
  simp only [PacketIn.flow?, Option.bind_eq_some_iff, Option.map_eq_some_iff]
  constructor
  · rintro ⟨ipPkt, hip, l4Pkt, hl4, hk⟩
    exact ⟨ipPkt, l4Pkt, hip, hl4, hk⟩
  · rintro ⟨ipPkt, l4Pkt, hip, hl4, hk⟩
    exact ⟨ipPkt, hip, l4Pkt, hl4, hk⟩

/-- The key of the flow of a packet-in, for an event that is one. -/
def Event.flow? : Event → Option TrustKey
  | .packetIn _ _ msg => msg.flow?
  | _ => none

namespace FirewallApp

/-- The call of `_check_dpi` an event leads to. -/
def dpiCall? (c : FirewallApp) : Event → Option DpiCall
  | .packetIn d now msg =>
    if d ∈ c.datapaths.keys then msg.ethernet?.bind (c.dpiCallOf now msg.data) else none
  | _ => none

/-- The verdict on a packet-in that is handled. -/
def verdictOf? (c : FirewallApp) : Event → Option CheckResult
  | .packetIn d now msg => if d ∈ c.datapaths.keys then c.verdict? ⟨d⟩ now msg else none
  | _ => none

/-- The flow an event counts a forwarded packet for. -/
def counted? (c : FirewallApp) : Event → Option (IPv4 × L4)
  | .packetIn d now msg =>
    if c.verdictOf? (.packetIn d now msg) = some .allowed then
      msg.ethernet?.bind fun ethPkt =>
        trustTarget? (Packet.parse msg.data) ethPkt (c.routeOf d msg ethPkt)
    else none
  | _ => none

/-- The event counts a forwarded packet for the flow. -/
def Counts (c : FirewallApp) (ev : Event) (k : TrustKey) : Prop :=
  (c.counted? ev).map (fun t => flowKeyOf t.1 t.2) = some k

instance (c : FirewallApp) (ev : Event) (k : TrustKey) : Decidable (c.Counts ev k) :=
  inferInstanceAs (Decidable (_ = _))

/-- The record of a flow once the DPI stage of an event is through. -/
def inspected? (c : FirewallApp) (ev : Event) (k : TrustKey) : Option TrustEntry :=
  match c.dpiCall? ev with
  | none => c.trustTable.get? k
  | some call => if k = call.key then some (call.after c) else c.trustTable.get? k

/-- The event deletes the record of the flow: it is an accepted request to block an address or a
port of the flow, or to add a signature. -/
inductive Drops (compile : ReCompile) (c : FirewallApp) (k : TrustKey) : Event → Prop
  | ip (ip : String) (hok : (Request.addBlockedIp ip).Accepted compile c)
      (hk : k.hasIp ip = true) : Drops compile c k (.rest (.addBlockedIp ip))
  | port (port proto : String) (hok : (Request.addBlockedPort port proto).Accepted compile c)
      (rule : ℕ × ℕ) (hrule : portRule port proto = .ok rule)
      (hk : k.hasPort rule.1 rule.2 = true) : Drops compile c k (.rest (.addBlockedPort port proto))
  | pattern (body : Except Exc Json) (hok : (Request.addDpiPattern body).Accepted compile c) :
      Drops compile c k (.rest (.addDpiPattern body))

end FirewallApp

/-- A packet deletes no record. -/
theorem not_drops_of_flow? {compile : ReCompile} {c : FirewallApp} {ev : Event} {k k' : TrustKey}
    (hk : ev.flow? = some k) : ¬ c.Drops compile k' ev := by
  rintro ⟨⟩ <;> exact absurd hk (by simp [Event.flow?])

/-- An ignored packet-in leads to no DPI call. -/
theorem dpiCall?_of_no_verdict {c : FirewallApp} {d : ℕ} {now : ℚ} {msg : PacketIn}
    (hv : c.verdict? ⟨d⟩ now msg = none) : c.dpiCall? (.packetIn d now msg) = none := by
  simp only [FirewallApp.dpiCall?]
  split
  swap
  · rfl
  cases heth : msg.ethernet? with
  | none => rfl
  | some ethPkt =>
      rw [Option.bind_some, Option.eq_none_iff_forall_ne_some]
      intro call hcall
      obtain ⟨hval, -⟩ := (filtered_filterOf c ⟨d⟩ now msg ethPkt).of_dpiCall hcall
      rw [verdict?_eq_some.mpr ⟨ethPkt, heth, hval⟩] at hv
      exact absurd hv (by simp)

/-- What `inspected?` says of a packet-in is the record before it is counted. -/
theorem inspected?_packetIn {c : FirewallApp} {d : ℕ} {now : ℚ} {msg : PacketIn}
    {ethPkt : Ethernet} (hd : d ∈ c.datapaths.keys) (heth : msg.ethernet? = some ethPkt)
    (k : TrustKey) :
    (c.afterLearning ⟨d⟩ now msg ethPkt).trustTable.get? k =
      c.inspected? (.packetIn d now msg) k := by
  rw [get?_afterLearning, FirewallApp.inspected?, FirewallApp.dpiCall?, if_pos hd, heth,
    Option.bind_some]

/-- A request deletes the record of a flow or leaves it. -/
theorem get?_of_served {compile : ReCompile} {c c' : FirewallApp} {req : Request}
    {val : Except Exc Response} {msgs : List OFPMsg} (hval : ((serve compile req).run c).val = val)
    (h : Served compile c req val c' msgs) (k : TrustKey) :
    (c.Drops compile k (.rest req) ∧ c'.trustTable.get? k = none) ∨
      ¬ c.Drops compile k (.rest req) ∧ c'.trustTable.get? k = c.trustTable.get? k := by
  -- what an answer with status 200 says about the request
  have accepted : ∀ body, val = .ok { body } → req.Accepted compile c :=
    fun body hbody => ⟨{ body }, hval.trans hbody, rfl⟩
  cases h with
  | refused req val hrefused =>
      have hnot : ¬ req.Accepted compile c := by
        rintro ⟨response, hresponse, hstatus⟩
        exact hrefused response (hval.symm.trans hresponse) hstatus
      refine Or.inr ⟨?_, rfl⟩
      intro hdrop
      cases hdrop with
      | ip _ hok | port _ _ hok | pattern _ hok => exact hnot hok
  | ipBlocked ip body =>
      by_cases hk : k.hasIp ip = true
      · refine Or.inl ⟨.ip ip (accepted body rfl) hk, ?_⟩
        simp [Dict.get?_filterKeys, hk]
      · refine Or.inr ⟨?_, by simp [Dict.get?_filterKeys, hk]⟩
        rintro ⟨⟩
        exact hk ‹_›
  | portBlocked port proto rule m body hrule =>
      by_cases hk : k.hasPort rule.1 rule.2 = true
      · refine Or.inl ⟨.port port proto (accepted body rfl) rule hrule hk, ?_⟩
        simp [Dict.get?_filterKeys, hk]
      · refine Or.inr ⟨?_, by simp [Dict.get?_filterKeys, hk]⟩
        intro hdrop
        cases hdrop with
        | port _ _ _ rule' hrule' hk' =>
            obtain rfl : rule = rule' := by simpa [hrule] using hrule'
            exact hk hk'
  | patternAdded json name rawPattern description dpi pattern =>
      exact Or.inl ⟨.pattern _ (accepted _ rfl), by simp [Dict.get?_filterKeys]⟩
  | ipUnblocked | portUnblocked | rateLimit | patternRemoved =>
      exact Or.inr ⟨by rintro ⟨⟩, rfl⟩

/-- What an event does to the record of a flow: it is deleted, or it goes through the DPI stage and
is then counted. -/
theorem get?_of_acted {compile : ReCompile} {c c' : FirewallApp} {ev : Event}
    {ms : ℕ → List OFPMsg} (h : Acted compile c ev c' ms) (k : TrustKey) :
    (c.Drops compile k ev ∧ c'.trustTable.get? k = none) ∨
      ¬ c.Drops compile k ev ∧ c'.trustTable.get? k =
        if c.Counts ev k then some ((c.inspected? ev k).getD {}).recorded
        else c.inspected? ev k := by
  -- the events that leave the record alone
  have idle : (∀ d now msg, ev ≠ .packetIn d now msg) → ¬ c.Drops compile k ev →
      c'.trustTable.get? k = c.trustTable.get? k → ¬ c.Drops compile k ev ∧ c'.trustTable.get? k =
        if c.Counts ev k then some ((c.inspected? ev k).getD {}).recorded
        else c.inspected? ev k := by
    intro hev hdrop hget
    refine ⟨hdrop, ?_⟩
    rw [hget]
    cases ev with
    | packetIn d now msg => exact absurd rfl (hev d now msg)
    | handshake | rest | expire => rfl
  cases h with
  | handshake d => exact Or.inr (idle (by simp) (by rintro ⟨⟩) rfl)
  | expired d e => exact Or.inr (idle (by simp) (by rintro ⟨⟩) rfl)
  | unheard d now msg hd =>
      refine Or.inr ⟨by rintro ⟨⟩, ?_⟩
      simp [FirewallApp.Counts, FirewallApp.counted?, FirewallApp.verdictOf?,
        FirewallApp.inspected?, FirewallApp.dpiCall?, hd]
  | ignored d now msg tracker hd hv =>
      refine Or.inr ⟨by rintro ⟨⟩, ?_⟩
      simp [FirewallApp.Counts, FirewallApp.counted?, FirewallApp.verdictOf?,
        FirewallApp.inspected?, dpiCall?_of_no_verdict hv, hv]
  | rejected d now msg result ethPkt hd hv hrej heth =>
      refine Or.inr ⟨by rintro ⟨⟩, ?_⟩
      have hcounts : ¬ c.Counts (.packetIn d now msg) k := by
        simp [FirewallApp.Counts, FirewallApp.counted?, FirewallApp.verdictOf?, hv, hrej]
      rw [if_neg hcounts, inspected?_packetIn hd heth]
  | allowed d now msg ethPkt hd hv heth =>
      refine Or.inr ⟨by rintro ⟨⟩, ?_⟩
      have hcounts : c.Counts (.packetIn d now msg) k ↔
          (trustTarget? (Packet.parse msg.data) ethPkt (c.routeOf d msg ethPkt)).map
            (fun t => flowKeyOf t.1 t.2) = some k := by
        simp only [FirewallApp.Counts, FirewallApp.counted?, FirewallApp.verdictOf?, if_pos hd, hv,
          if_true, heth, Option.bind_some]
      simp only [get?_recordFor, FirewallApp.entryOf, inspected?_packetIn hd heth, hcounts]
  | served req val c' msgs hval h =>
      rcases get?_of_served hval h k with ⟨hdrop, hget⟩ | ⟨hdrop, hget⟩
      · exact Or.inl ⟨hdrop, hget⟩
      · exact Or.inr (idle (by simp) hdrop hget)

/-! ## The event's own view -/

/-- The record a flow has once the DPI stage of an event is through. -/
theorem getD_inspected? (c : FirewallApp) (ev : Event) (k : TrustKey) :
    (c.inspected? ev k).getD {} =
      match c.dpiCall? ev with
      | none => c.entryOf k
      | some call => if k = call.key then call.after c else c.entryOf k := by
  unfold FirewallApp.inspected?
  cases c.dpiCall? ev with
  | none => rfl
  | some call => by_cases hk : k = call.key <;> simp [hk, FirewallApp.entryOf]

/-- The DPI stage of an event changes the record of the flow it is called for, and no other. -/
theorem getD_inspected?_cases (c : FirewallApp) (ev : Event) (k : TrustKey) :
    (c.inspected? ev k).getD {} = c.entryOf k ∨
      ∃ call, c.dpiCall? ev = some call ∧ k = call.key ∧
        (c.inspected? ev k).getD {} = call.after c := by
  rw [getD_inspected?]
  cases c.dpiCall? ev with
  | none => exact Or.inl rfl
  | some call =>
      by_cases hk : k = call.key
      · exact Or.inr ⟨call, rfl, hk, if_pos hk⟩
      · exact Or.inl (if_neg hk)

/-- The DPI stage leaves the trust of a flow alone. -/
theorem trust_inspected? (c : FirewallApp) (ev : Event) (k : TrustKey) :
    ((c.inspected? ev k).getD {}).installed = (c.entryOf k).installed ∧
      ((c.inspected? ev k).getD {}).count = (c.entryOf k).count := by
  rcases getD_inspected?_cases c ev k with h | ⟨call, -, rfl, h⟩
  · rw [h]
    exact ⟨rfl, rfl⟩
  · rw [h]
    simp [DpiCall.after]

/-- What an event makes of a record: it drops it, or counts the packet in what inspection left of
it. -/
theorem get?_handle (compile : ReCompile) {c : FirewallApp} (hc : c.Keyed) (ev : Event)
    (k : TrustKey) :
    (c.Drops compile k ev ∧ (c.handle compile ev).1.trustTable.get? k = none) ∨
      ¬ c.Drops compile k ev ∧ (c.handle compile ev).1.trustTable.get? k =
        if c.Counts ev k then some ((c.inspected? ev k).getD {}).recorded
        else c.inspected? ev k := by
  obtain ⟨c', ms, hact, hcore, -⟩ := acted_handle compile hc ev
  have htable : (c.handle compile ev).1.trustTable = c'.trustTable :=
    congrArg (fun c => c.trustTable) hcore
  rw [htable]
  exact get?_of_acted hact k

/-- A record that is there after an event was not deleted by it. -/
theorem not_drops_of_get? {compile : ReCompile} {c : FirewallApp} (hc : c.Keyed) {ev : Event}
    {k : TrustKey} (h : (c.handle compile ev).1.trustTable.get? k ≠ none) :
    ¬ c.Drops compile k ev := by
  intro hdrop
  rcases get?_handle compile hc ev k with ⟨-, hnone⟩ | ⟨hnot, -⟩
  · exact h hnone
  · exact hnot hdrop

/-- The record after an event that does not delete it. -/
theorem entryOf_handle {compile : ReCompile} {c : FirewallApp} (hc : c.Keyed) {ev : Event}
    {k : TrustKey} (hdrop : ¬ c.Drops compile k ev) :
    (c.handle compile ev).1.entryOf k =
      if c.Counts ev k then ((c.inspected? ev k).getD {}).recorded
      else (c.inspected? ev k).getD {} := by
  rcases get?_handle compile hc ev k with ⟨h, -⟩ | ⟨-, h⟩
  · exact absurd h hdrop
  · rw [FirewallApp.entryOf, h]
    split <;> rfl

section Inspected

variable {c : FirewallApp} {d : ℕ} {now : ℚ} {msg : PacketIn}

/-- Inspection is called for a connected switch, about the frame of the packet-in. -/
theorem dpiCall?_eq_some {call : DpiCall} :
    c.dpiCall? (.packetIn d now msg) = some call ↔
      d ∈ c.datapaths.keys ∧ ∃ ethPkt, msg.ethernet? = some ethPkt ∧
        c.dpiCallOf now msg.data ethPkt = some call := by
  simp only [FirewallApp.dpiCall?, Option.ite_none_right_eq_some, Option.bind_eq_some_iff]

/-- A packet-in has a verdict only from a connected switch. -/
theorem verdictOf?_eq_some {result : CheckResult} :
    c.verdictOf? (.packetIn d now msg) = some result ↔
      d ∈ c.datapaths.keys ∧ c.verdict? ⟨d⟩ now msg = some result := by
  rw [FirewallApp.verdictOf?, Option.ite_none_right_eq_some]

/-- What reaches the DPI stage is a segment of the flow whose record it looks at. -/
theorem flow?_of_dpiCall? {ev : Event} {call : DpiCall} (h : c.dpiCall? ev = some call) :
    ev.flow? = some call.key ∧ call.key.proto = 6 := by
  cases ev with
  | handshake | rest | expire => exact absurd h (by simp [FirewallApp.dpiCall?])
  | packetIn d now msg =>
      obtain ⟨-, ethPkt, -, hcall⟩ := dpiCall?_eq_some.mp h
      obtain ⟨hip, htcp, -, -, hproto, -⟩ := dpiCallOf_eq_some.mp hcall
      refine ⟨?_, (trustKey_proto ..).trans hproto⟩
      exact PacketIn.flow?_eq_some.mpr ⟨_, _, hip, by simp [l4Of, hproto, htcp], rfl⟩

/-- A counted packet is an allowed one, and a packet of the flow it counts for. -/
theorem counts_packetIn {k : TrustKey} :
    c.Counts (.packetIn d now msg) k ↔
      c.verdictOf? (.packetIn d now msg) = some .allowed ∧ ∃ ethPkt ipPkt l4Pkt,
        msg.ethernet? = some ethPkt ∧
        trustTarget? (Packet.parse msg.data) ethPkt (c.routeOf d msg ethPkt) =
          some (ipPkt, l4Pkt) ∧ flowKeyOf ipPkt l4Pkt = k := by
  simp only [FirewallApp.Counts, FirewallApp.counted?, Option.map_eq_some_iff,
    Option.ite_none_right_eq_some, Option.bind_eq_some_iff]
  constructor
  · rintro ⟨⟨ipPkt, l4Pkt⟩, ⟨hv, ethPkt, heth, htarget⟩, hk⟩
    exact ⟨hv, ethPkt, ipPkt, l4Pkt, heth, htarget, hk⟩
  · rintro ⟨hv, ethPkt, ipPkt, l4Pkt, heth, htarget, hk⟩
    exact ⟨⟨ipPkt, l4Pkt⟩, ⟨hv, ethPkt, heth, htarget⟩, hk⟩

/-- A counted packet was allowed, and is one of the flow. -/
theorem flow?_of_counts {ev : Event} {k : TrustKey} (h : c.Counts ev k) :
    c.verdictOf? ev = some .allowed ∧ ev.flow? = some k := by
  cases ev with
  | handshake | rest | expire => exact absurd h (by simp [FirewallApp.Counts, FirewallApp.counted?])
  | packetIn d now msg =>
      obtain ⟨hv, ethPkt, ipPkt, l4Pkt, -, htarget, rfl⟩ := counts_packetIn.mp h
      obtain ⟨-, -, hip, hl4⟩ := trustTarget?_eq_some.mp htarget
      exact ⟨hv, PacketIn.flow?_eq_some.mpr ⟨ipPkt, l4Pkt, hip, hl4, rfl⟩⟩

/-- A packet that is rejected by the DPI stage leaves the record of its flow blocked. -/
theorem blocked_of_verdictOf? {ev : Event} {k : TrustKey}
    (hv : c.verdictOf? ev = some .dpiBlocked) (hk : ev.flow? = some k) :
    k.proto = 6 ∧ ((c.inspected? ev k).getD {}).blocked = true := by
  cases ev with
  | handshake | rest | expire => exact absurd hv (by simp [FirewallApp.verdictOf?])
  | packetIn d now msg =>
      obtain ⟨hd, hv⟩ := verdictOf?_eq_some.mp hv
      obtain ⟨ethPkt, heth, hval⟩ := verdict?_eq_some.mp hv
      obtain ⟨call, hcall, hb⟩ := (filtered_filterOf c ⟨d⟩ now msg ethPkt).dpiCall_of_blocked hval
      have hcall' := dpiCall?_eq_some.mpr ⟨hd, ethPkt, heth, hcall⟩
      obtain ⟨hflow, hproto⟩ := flow?_of_dpiCall? hcall'
      obtain rfl : call.key = k := by simpa [hk] using hflow.symm
      refine ⟨hproto, ?_⟩
      rw [getD_inspected?, hcall']
      simpa using hb

/-- An allowed segment has gone through the DPI stage, and has left its record unblocked. -/
theorem dpiCall?_of_allowed {ev : Event} {k : TrustKey} (hv : c.verdictOf? ev = some .allowed)
    (hk : ev.flow? = some k) (hproto : k.proto = 6) :
    ∃ call, c.dpiCall? ev = some call ∧ call.key = k ∧ (call.after c).blocked = false := by
  cases ev with
  | handshake | rest | expire => exact absurd hv (by simp [FirewallApp.verdictOf?])
  | packetIn d now msg =>
      obtain ⟨hd, hv⟩ := verdictOf?_eq_some.mp hv
      obtain ⟨ipPkt, l4Pkt, hip, hl4, rfl⟩ := PacketIn.flow?_eq_some.mp hk
      rw [flowKeyOf, trustKey_proto] at hproto
      obtain ⟨ethPkt, hparse, htype⟩ := Packet.ethernet_of_ipv4 hip
      have heth := ethernet?_of_verdict? hv hparse
      have hval := (verdict?_iff heth).mp hv
      have hf := filtered_filterOf c ⟨d⟩ now msg ethPkt
      obtain ⟨ipPkt', hip', hsrc, hsegment, -⟩ := hf.allowed_ipv4 hval htype
      obtain rfl : ipPkt' = ipPkt := by simpa [hip] using hip'.symm
      obtain ⟨tcpPkt, htcp, hseg⟩ := hsegment hproto
      obtain rfl : tcpPkt.l4 = l4Pkt := by simpa [l4Of, hproto, htcp] using hl4
      have hcall : c.dpiCallOf now msg.data ethPkt =
          some ⟨ipPkt', tcpPkt, extractTcpPayload msg.data ipPkt' tcpPkt⟩ :=
        dpiCallOf_eq_some.mpr ⟨hip, htcp, htype, hsrc, hproto, hseg, rfl⟩
      refine ⟨_, dpiCall?_eq_some.mpr ⟨hd, ethPkt, heth, hcall⟩, rfl, ?_⟩
      obtain ⟨hval', -⟩ := hf.of_dpiCall hcall
      by_contra hb
      simp [hval', hb] at hval

/-- A segment whose flow is blocked once the DPI stage is through is not allowed. -/
theorem not_allowed_of_blocked {ev : Event} {k : TrustKey} (hk : ev.flow? = some k)
    (hproto : k.proto = 6) (hb : ((c.inspected? ev k).getD {}).blocked = true) :
    c.verdictOf? ev ≠ some .allowed := by
  intro hv
  obtain ⟨call, hcall, rfl, hopen⟩ := dpiCall?_of_allowed hv hk hproto
  rw [getD_inspected?, hcall] at hb
  simp [hopen] at hb

end Inspected

/-- The DPI stage unblocks nothing. -/
theorem blocked_inspected? {c : FirewallApp} {k : TrustKey} (hb : (c.entryOf k).blocked = true)
    (ev : Event) : (c.inspected? ev k).getD {} = c.entryOf k := by
  rcases getD_inspected?_cases c ev k with h | ⟨call, -, rfl, h⟩
  · exact h
  · rw [h, DpiCall.after, TrustEntry.inspected_of_blocked hb]

/-- The blocked flag of a record is set by the DPI stage, and otherwise kept. -/
theorem blocked_handle {compile : ReCompile} {c : FirewallApp} (hc : c.Keyed) {ev : Event}
    {k : TrustKey} (hdrop : ¬ c.Drops compile k ev) :
    ((c.handle compile ev).1.entryOf k).blocked = ((c.inspected? ev k).getD {}).blocked := by
  rw [entryOf_handle hc hdrop]
  split
  · exact TrustEntry.blocked_recorded _
  · rfl

end SdnFirewall
