import SdnFirewall.Controller.Segments
import SdnFirewall.System.Records

/-!
# What an event counts

The counters are bumped in three places: the DPI stage, the accounting of a verdict and the
recording of trust. For one event this comes to one list of counters, each going up as often as it
is listed; an added signature sets one of them back to zero.
-/

namespace SdnFirewall

open Common OpenFlow Python

namespace Stats

/-- The counter of a key. -/
def get (s : Stats) : StatKey → ℕ
  | .allowed => s.allowed
  | .blocked => s.blocked
  | .total => s.total
  | .arpSpoof => s.arpSpoof
  | .rateLimited => s.rateLimited
  | .scanDetected => s.scanDetected
  | .trustFlowsInstalled => s.trustFlowsInstalled
  | .dpiBlocked => s.dpiBlocked

@[simp] theorem get_incr (s : Stats) (k k' : StatKey) :
    (s.incr k).get k' = s.get k' + if k' = k then 1 else 0 := by
  cases k <;> cases k' <;> rfl

/-- The listed counters went up, each as often as it is listed. -/
def CountedUp (s : Stats) (keys : List StatKey) (s' : Stats) : Prop :=
  ∀ k, s'.get k = s.get k + keys.count k

/-- Counters that stay went up by nothing. -/
theorem countedUp_nil (s : Stats) : s.CountedUp [] s := fun _ => rfl

/-- An incremented counter went up once. -/
theorem countedUp_incr (s : Stats) (k : StatKey) : s.CountedUp [k] (s.incr k) := by
  intro k'
  rw [get_incr]
  by_cases hk : k' = k
  · simp [hk]
  · simp [hk, Ne.symm hk]

/-- What went up in two parts went up by both lists. -/
theorem CountedUp.trans {s s' s'' : Stats} {keys keys' : List StatKey} (h : s.CountedUp keys s')
    (h' : s'.CountedUp keys' s'') : s.CountedUp (keys ++ keys') s'' := by
  intro k
  rw [h' k, h k, List.count_append, Nat.add_assoc]

end Stats

/-! ## The filtering area -/

section FilterOf

variable {c : FirewallApp} {datapath : Datapath} {now : ℚ} {msg : PacketIn} {ethPkt : Ethernet}

/-- The clock of a source has no say in what a segment completes. -/
theorem blocks_clocked {call : DpiCall} {ip : String} :
    call.Blocks (c.clocked now ip) ↔ call.Blocks c := by
  simp only [DpiCall.Blocks, DpiCall.after_clocked, FirewallApp.entryOf, trustTable_clocked]

/-- Nor in the counters. -/
theorem stats_clocked (ip : String) : (c.clocked now ip).stats = c.stats := by
  obtain ⟨tracker, htracker⟩ := clocked_eq c now ip
  rw [htracker]

/-- A segment in the filtering area: it is counted if it gets its flow blocked. -/
theorem stats_filterOf_of_dpiCall {call : DpiCall}
    (hcall : c.dpiCallOf now msg.data ethPkt = some call) :
    (c.filterOf datapath now msg ethPkt).state.stats =
      if call.Blocks c then c.stats.incr .dpiBlocked else c.stats := by
  rw [(filtered_filterOf c datapath now msg ethPkt).eq_checkDpi hcall]
  have h := stats_checked (c.clocked now call.ipPkt.src) call
  simp only [blocks_clocked, stats_clocked] at h
  exact h

/-- The filtering area counts nothing but the segments that get their flow blocked. -/
theorem stats_filterOf_of_verdict {result : CheckResult}
    (hval : (c.filterOf datapath now msg ethPkt).val = .ok (some result))
    (hresult : result ≠ .dpiBlocked) :
    (c.filterOf datapath now msg ethPkt).state.stats = c.stats := by
  have hf := filtered_filterOf c datapath now msg ethPkt
  cases hcall : c.dpiCallOf now msg.data ethPkt with
  | none =>
      obtain ⟨tracker, arps, hstate⟩ := hf.state_of_no_dpiCall hcall
      rw [hstate]
  | some call =>
      have hnot : ¬ call.Blocks c := by
        rintro ⟨-, hb⟩
        obtain ⟨hval', -⟩ := hf.of_dpiCall hcall
        rw [hval', if_pos hb] at hval
        cases hval
        exact hresult rfl
      rw [stats_filterOf_of_dpiCall hcall, if_neg hnot]

/-- The headers a rejected packet is logged with were parsed by the check that rejected it. -/
theorem Filtered.parsed {data : Bytes} {r : FwOutcome (Option CheckResult)} {result : CheckResult}
    (h : Filtered datapath now data ethPkt c r) (hval : r.val = .ok (some result))
    (heth : ethPkt.ethertype = ETH_TYPE_IP) :
    ∃ ipPkt, (Packet.parse data).ipv4 = some ipPkt ∧
      (result = .portBlocked → (l4Of (Packet.parse data) ipPkt).isSome) := by
  have hne : ethPkt.ethertype ≠ ETH_TYPE_ARP := by rw [heth]; decide
  -- by the check that gave the verdict
  cases h with
  | ignored | noHeader | noL4 => cases hval
  | arp _ harp => exact absurd harp hne
  | source ip _ hip =>
      refine ⟨ip, hip, fun hport => ?_⟩
      have hsrc : c.sourceVerdict now ip.src ≠ .portBlocked :=
        sourceVerdict_ne c now ip.src (by simp) id
      cases hval
      exact absurd hport hsrc
  | datagram ip udp _ hip _ hproto hudp =>
      exact ⟨ip, hip, fun _ => by simp [l4Of, hproto, hudp]⟩
  | segment ip tcp _ hip _ hproto htcp | inspected ip tcp _ hip _ hproto htcp =>
      exact ⟨ip, hip, fun _ => by simp [l4Of, hproto, htcp]⟩
  | other ip _ hip =>
      refine ⟨ip, hip, fun hport => ?_⟩
      cases hval
      cases hport

end FilterOf

/-! ## The outcome of a verdict -/

/-- A rejected packet goes into the counter of its verdict. -/
theorem countedUp_applyResult (c : FirewallApp) {result : CheckResult}
    (hresult : result ≠ .dpiBlocked) (src dst proto : String) (port : ℕ) :
    c.stats.CountedUp result.statKey.toList
      ((applyResult result src dst proto port).run c).state.stats := by
  simp only [applyResult, if_neg hresult, countResult]
  cases result.statKey with
  | none => exact c.stats.countedUp_nil
  | some key => exact c.stats.countedUp_incr key

/-- What a blocked-port message names is there if the transport header is. -/
theorem exists_run_portBlockArgs {pkt : Packet} {ipPkt : IPv4} (hl4 : (l4Of pkt ipPkt).isSome)
    (c : FirewallApp) : ∃ args, (portBlockArgs pkt ipPkt).run c = ⟨.ok args, c, []⟩ := by
  unfold l4Of at hl4
  unfold portBlockArgs
  split_ifs at hl4 ⊢
  · obtain ⟨tcpPkt, htcp⟩ := Option.isSome_iff_exists.mp (by simpa using hl4)
    exact ⟨_, by rw [htcp]; rfl⟩
  · obtain ⟨udpPkt, hudp⟩ := Option.isSome_iff_exists.mp (by simpa using hl4)
    exact ⟨_, by rw [hudp]; rfl⟩
  · exact absurd hl4 (by simp)

/-- A rejection counts once under its own name, where the headers it reads were parsed. -/
theorem countedUp_rejectPacket (c : FirewallApp) {pkt : Packet} {ethPkt : Ethernet}
    {result : CheckResult} (hresult : result ≠ .dpiBlocked)
    (hparsed : ethPkt.ethertype = ETH_TYPE_IP → ∃ ipPkt, pkt.ipv4 = some ipPkt ∧
      (result = .portBlocked → (l4Of pkt ipPkt).isSome)) :
    c.stats.CountedUp result.statKey.toList
      ((rejectPacket pkt ethPkt result).run c).state.stats := by
  unfold rejectPacket
  by_cases heth : ethPkt.ethertype = ETH_TYPE_IP
  swap
  · rw [if_pos heth]
    exact countedUp_applyResult c hresult _ _ _ _
  rw [if_neg (not_not.mpr heth)]
  obtain ⟨ipPkt, hip, hl4⟩ := hparsed heth
  simp only [hip, Prog.run_bind, Prog.run_orRaise_some, Outcome.andThen_ok, List.nil_append]
  by_cases hport : result = .portBlocked
  swap
  · rw [if_neg hport]
    exact countedUp_applyResult c hresult _ _ _ _
  obtain ⟨args, hrun⟩ := exists_run_portBlockArgs (hl4 hport) c
  simp only [if_pos hport, Prog.run_bind, hrun, Outcome.andThen_ok]
  exact countedUp_applyResult c hresult _ _ _ _

/-- The packet completes the trust of the flow it counts for. -/
def FirewallApp.CompletesFor (c : FirewallApp) (target : Option (IPv4 × L4)) : Prop :=
  (target.any fun t => decide (c.entryOf (flowKeyOf t.1 t.2)).Completes) = true

instance (c : FirewallApp) (target : Option (IPv4 × L4)) : Decidable (c.CompletesFor target) :=
  inferInstanceAs (Decidable (_ = _))

/-- A forwarded packet is counted as allowed, and with it the trust it completes. -/
theorem countedUp_forwardPacket (datapath : Datapath) (msg : PacketIn) (pkt : Packet)
    (ethPkt : Ethernet) (c : FirewallApp) :
    c.stats.CountedUp
      (if c.CompletesFor (trustTarget? pkt ethPkt (c.outPortOf datapath.id ethPkt.dst)) then
        [.allowed, .trustFlowsInstalled] else [.allowed])
      ((forwardPacket datapath msg pkt ethPkt).run c).state.stats := by
  simp only [run_forwardPacket]
  generalize c.outPortOf datapath.id ethPkt.dst = outPort
  by_cases hl : Learns ethPkt outPort
  · rw [if_pos hl, trustTarget?_of_learns hl]
    exact c.stats.countedUp_incr .allowed
  rw [if_neg hl, run_sendOut]
  cases htarget : trustTarget? pkt ethPkt outPort with
  | none => exact c.stats.countedUp_incr .allowed
  | some target =>
      obtain ⟨ipPkt, l4Pkt⟩ := target
      obtain ⟨-, -, -, hl4⟩ := trustTarget?_eq_some.mp htarget
      have hiff : c.CompletesFor (some (ipPkt, l4Pkt)) ↔
          ((c.bump .allowed).entryOf (flowKeyOf ipPkt l4Pkt)).Completes := decide_eq_true_iff
      simp only [run_recordTrust, if_pos (proto_of_l4Of hl4), hiff]
      split
      · exact (c.stats.countedUp_incr .allowed).trans
          ((c.stats.incr .allowed).countedUp_incr .trustFlowsInstalled)
      · exact c.stats.countedUp_incr .allowed

/-! ## One event -/

namespace FirewallApp

/-- The packet-in reaches the DPI stage and finds its flow blocked. -/
def FindsBlocked (c : FirewallApp) (ev : Event) : Prop :=
  ((c.dpiCall? ev).any fun call => (c.entryOf call.key).blocked) = true

instance (c : FirewallApp) (ev : Event) : Decidable (c.FindsBlocked ev) :=
  inferInstanceAs (Decidable (_ = _))

/-- The counters an event bumps. -/
def counters (c : FirewallApp) (ev : Event) : List StatKey :=
  match c.verdictOf? ev with
  | none => []
  | some .dpiBlocked => if c.FindsBlocked ev then [.total] else [.dpiBlocked, .total]
  | some .allowed =>
    if c.CompletesFor (c.counted? ev) then [.total, .allowed, .trustFlowsInstalled]
    else [.total, .allowed]
  | some result => .total :: result.statKey.toList

end FirewallApp

section PacketIn

variable {c : FirewallApp} {d : ℕ} {now : ℚ} {msg : PacketIn}

/-- A segment rejected by the DPI stage is counted there if it is the one that gets its flow
blocked, and in `total` anyway. -/
theorem countedUp_of_dpiBlocked (hd : d ∈ c.datapaths.keys)
    (hv : c.verdict? ⟨d⟩ now msg = some .dpiBlocked) :
    c.stats.CountedUp
      (if c.FindsBlocked (.packetIn d now msg) then [.total] else [.dpiBlocked, .total])
      ((packetInHandler ⟨d⟩ now msg).run c).state.stats := by
  obtain ⟨ethPkt, heth, hval, hrun⟩ := packetIn_of_verdict hv
  obtain ⟨call, hcall, hb⟩ := (filtered_filterOf c ⟨d⟩ now msg ethPkt).dpiCall_of_blocked hval
  have hstate : ((packetInHandler ⟨d⟩ now msg).run c).state.stats =
      (c.filterOf ⟨d⟩ now msg ethPkt).state.stats.incr .total := by
    rw [hrun]
    rfl
  have hfinds : c.FindsBlocked (.packetIn d now msg) ↔ ¬ call.Blocks c := by
    rw [FirewallApp.FindsBlocked, dpiCall?_eq_some.mpr ⟨hd, ethPkt, heth, hcall⟩]
    simp [DpiCall.Blocks, hb]
  rw [hstate, stats_filterOf_of_dpiCall hcall]
  by_cases hblocks : call.Blocks c
  · rw [if_pos hblocks, if_neg (not_iff_not.mpr hfinds |>.mpr (not_not.mpr hblocks))]
    exact (c.stats.countedUp_incr .dpiBlocked).trans
      ((c.stats.incr .dpiBlocked).countedUp_incr .total)
  · rw [if_neg hblocks, if_pos (hfinds.mpr hblocks)]
    exact c.stats.countedUp_incr .total

/-- A rejected packet-in, but for one of a blocked flow, counts in total and under its verdict. -/
theorem countedUp_of_rejected {result : CheckResult}
    (hv : c.verdict? ⟨d⟩ now msg = some result) (hdpi : result ≠ .dpiBlocked)
    (hrej : result ≠ .allowed) :
    c.stats.CountedUp (.total :: result.statKey.toList)
      ((packetInHandler ⟨d⟩ now msg).run c).state.stats := by
  obtain ⟨ethPkt, heth, hval, hrun⟩ := packetIn_of_verdict hv
  have hf := filtered_filterOf c ⟨d⟩ now msg ethPkt
  have hstats := stats_filterOf_of_verdict hval hdpi
  rw [hrun]
  simp only [outcomeArea, Prog.run_bind, Prog.run_modify, Outcome.andThen_ok, if_neg hdpi,
    if_pos hrej]
  refine (Stats.countedUp_incr c.stats .total).trans ?_
  rw [← hstats]
  exact countedUp_rejectPacket _ hdpi fun hip => hf.parsed hval hip

/-- An allowed one counts in total, as allowed, and as an installation if it completes trust. -/
theorem countedUp_of_allowed (hd : d ∈ c.datapaths.keys)
    (hv : c.verdict? ⟨d⟩ now msg = some .allowed) :
    c.stats.CountedUp
      (if c.CompletesFor (c.counted? (.packetIn d now msg)) then
        [.total, .allowed, .trustFlowsInstalled] else [.total, .allowed])
      ((packetInHandler ⟨d⟩ now msg).run c).state.stats := by
  obtain ⟨ethPkt, heth, hval, hrun⟩ := packetIn_of_verdict hv
  have hstats := stats_filterOf_of_verdict hval (by simp)
  have hcounted : c.counted? (.packetIn d now msg) =
      trustTarget? (Packet.parse msg.data) ethPkt (c.routeOf d msg ethPkt) := by
    rw [FirewallApp.counted?, if_pos (verdictOf?_eq_some.mpr ⟨hd, hv⟩), heth, Option.bind_some]
  -- the state the outcome area forwards the packet in
  set s := (c.filterOf ⟨d⟩ now msg ethPkt).state.bump .total
    |>.learnMac d ethPkt.src msg.inPort.no with hs
  have hcompletes : ∀ target, s.CompletesFor target ↔ c.CompletesFor target := by
    intro target
    cases target with
    | none => rfl
    | some t =>
        have h := completes_afterLearning c ⟨d⟩ now msg ethPkt (flowKeyOf t.1 t.2)
        exact decide_eq_true_iff.trans (h.trans decide_eq_true_iff.symm)
  have hport : s.outPortOf d ethPkt.dst = c.routeOf d msg ethPkt :=
    routeOf_filterOf c ⟨d⟩ now msg ethPkt d
  have htotal : s.stats = c.stats.incr .total := congrArg (·.incr .total) hstats
  have hforward := countedUp_forwardPacket ⟨d⟩ msg (Packet.parse msg.data) ethPkt s
  rw [hport, htotal] at hforward
  have hall := (c.stats.countedUp_incr .total).trans hforward
  simp only [hcompletes, apply_ite ([StatKey.total] ++ ·), List.singleton_append] at hall
  rw [hrun, hcounted]
  exact hall

end PacketIn

/-! ## Requests -/

/-- The request sets the trust gauge back: it is an accepted one to add a signature. -/
def Request.Resets (compile : ReCompile) (c : FirewallApp) (req : Request) : Prop :=
  ∃ body, req = .addDpiPattern body ∧ req.Accepted compile c

/-- A call that counts nothing. -/
abbrev Uncounted {α : Type} (p : Fw α) : Prop := p.Confined FirewallApp.stats fun _ => True

/-- A call whose end has the counters of its start counts nothing. -/
theorem uncounted_of_run {α : Type} {p : Fw α} (h : ∀ c, (p.run c).state.stats = c.stats) :
    Uncounted p :=
  ⟨h, fun _ _ _ => trivial⟩

/-- Logging counts nothing. -/
theorem log_uncounted (level msg src dst extra : String) :
    Uncounted (log level msg src dst extra) :=
  uncounted_of_run fun _ => rfl

/-- Neither does the answer to an exception. -/
theorem answerValueError_uncounted (status : ℕ) (e : Exc) :
    Uncounted (answerValueError status e) := by
  cases e <;> exact uncounted_of_run fun _ => rfl

/-- The last lines of a request that changes a rule: log it, and answer with the rules. -/
theorem logged_uncounted (level msg src dst extra : String) (f : FirewallApp → Response) :
    Uncounted (do
      log level msg src dst extra
      let c ← Prog.read
      pure (f c)) :=
  Prog.confined_bind (log_uncounted ..) fun _ =>
    Prog.confined_bind Prog.confined_read fun _ => Prog.confined_pure _

/-- Setting the rate counts nothing. -/
theorem setRateLimit_uncounted (body : Except Exc Json) : Uncounted (setRateLimit body) := by
  refine Prog.confined_bind (Prog.confined_ofExcept _) fun body => ?_
  refine Prog.confined_bind Prog.confined_read fun c => ?_
  refine Prog.confined_bind (Prog.confined_ofExcept _) fun limit => ?_
  refine Prog.confined_bind (Prog.confined_ofExcept _) fun limit => ?_
  refine Prog.confined_bind (Prog.confined_modify fun _ => rfl) fun _ => ?_
  refine Prog.confined_bind Prog.confined_read fun c => ?_
  refine Prog.confined_bind (Prog.confined_ofExcept _) fun window => ?_
  refine Prog.confined_bind (Prog.confined_ofExcept _) fun window => ?_
  refine Prog.confined_bind (Prog.confined_modify fun _ => rfl) fun _ => ?_
  exact Prog.confined_bind (log_uncounted ..) fun _ => Prog.confined_pure _

/-- Neither does withdrawing a pattern. -/
theorem delDpiPattern_uncounted (patternName : String) :
    Uncounted (delDpiPattern patternName) := by
  refine Prog.confined_bind (uncounted_of_run fun c => ?_) fun removed => ?_
  · rcases run_tryRemovePattern c patternName with ⟨e, hrun⟩ | ⟨dpi, removed, -, hrun⟩
    · rw [hrun, Outcome.andThen]
      have hkeep := (answerValueError_uncounted 403 e).keeps c
      split <;> exact hkeep
    · rw [hrun]
  split
  · exact Prog.confined_pure _
  · split
    · exact Prog.confined_pure _
    · exact Prog.confined_bind (log_uncounted ..) fun _ => Prog.confined_pure _

/-- Nor blocking an address. -/
theorem addBlockedIp_uncounted (ip : String) : Uncounted (addBlockedIp ip) := by
  unfold addBlockedIp
  split
  · exact Prog.confined_pure _
  · refine Prog.confined_bind (Prog.confined_modify fun _ => rfl) fun _ => ?_
    refine Prog.confined_bind (uncounted_of_run fun c => ?_) fun _ => logged_uncounted ..
    rw [run_flushFlowsForIp]
    rfl

/-- Nor withdrawing one. -/
theorem delBlockedIp_uncounted (ip : String) : Uncounted (delBlockedIp ip) := by
  refine Prog.confined_bind Prog.confined_read fun c => ?_
  split
  · exact Prog.confined_pure _
  · split
    · exact Prog.confined_pure _
    · exact Prog.confined_bind (Prog.confined_modify fun _ => rfl) fun _ => logged_uncounted ..

/-- Nor blocking a port. -/
theorem addBlockedPort_uncounted (port proto : String) : Uncounted (addBlockedPort port proto) := by
  unfold addBlockedPort
  cases hrule : portRule port proto with
  | error response => exact Prog.confined_pure _
  | ok rule =>
      obtain ⟨-, m, hm⟩ := dstPortMatch?_of_portRule hrule
      refine Prog.confined_bind (Prog.confined_modify fun _ => rfl) fun _ => ?_
      refine Prog.confined_bind (uncounted_of_run fun c => ?_) fun _ => logged_uncounted ..
      rw [run_flushFlowsForPort hm]
      rfl

/-- Nor withdrawing one. -/
theorem delBlockedPort_uncounted (port proto : String) : Uncounted (delBlockedPort port proto) := by
  unfold delBlockedPort
  split
  · exact Prog.confined_pure _
  · exact Prog.confined_bind (Prog.confined_modify fun _ => rfl) fun _ => logged_uncounted ..

/-- Adding a signature sets the gauge back, and a request to that end which is refused counts
nothing. -/
theorem stats_addDpiPattern (compile : ReCompile) (c : FirewallApp) (body : Except Exc Json) :
    let r := (addDpiPattern compile body).run c
    (∃ response, r.val = .ok response ∧ response.status = 200) ∧
        r.state.stats = { c.stats with trustFlowsInstalled := 0 } ∨
      (∀ response, r.val = .ok response → response.status ≠ 200) ∧ r.state.stats = c.stats := by
  have caught : ∀ e, (∀ response, ((answerValueError 400 e).run c).val = .ok response →
      response.status ≠ 200) ∧ ((answerValueError 400 e).run c).state.stats = c.stats := by
    intro e
    refine ⟨fun response hresponse => ?_, (answerValueError_uncounted 400 e).keeps c⟩
    cases e <;> cases hresponse
    simp [errorResponse]
  cases body with
  | error e =>
      cases e with
      | valueError msg => exact Or.inr (caught (.valueError "Invalid JSON body"))
      | _ => exact Or.inr ⟨by rintro _ ⟨⟩, rfl⟩
  | ok json =>
      simp only [addDpiPattern, addPatternAndFlush, Prog.run_tryCatch, Prog.run_bind]
      cases json.get "name" (.str "") with
      | error e => exact Or.inr (caught e)
      | ok name =>
      cases json.get "pattern" (.str "") with
      | error e => exact Or.inr (caught e)
      | ok rawPattern =>
      cases json.get "description" (.str "") with
      | error e => exact Or.inr (caught e)
      | ok description =>
      simp only [Prog.run_ofExcept_ok, Outcome.andThen_ok, List.nil_append, run_onDpi]
      -- from here on only the engine can refuse, and it has stored nothing when it does
      have hatomic := DPIEngine.allOrNothing_addPattern compile name rawPattern description
      cases hadd : ((DPIEngine.addPattern compile name rawPattern description).run c.dpi).val with
      | error e =>
          rw [state_of_allOrNothing hatomic hadd]
          exact Or.inr (caught e)
      | ok pattern =>
          simp only [Outcome.andThen_ok, run_flushAllTrustFlows, run_log, Prog.run_pure,
            Outcome.orElse_ok]
          exact Or.inl ⟨⟨_, rfl, rfl⟩, rfl⟩

/-- A request counts nothing, unless it sets the gauge back. -/
theorem stats_serve (compile : ReCompile) (c : FirewallApp) (req : Request) :
    req.Resets compile c ∧ ((serve compile req).run c).state.stats =
        { c.stats with trustFlowsInstalled := 0 } ∨
      ¬ req.Resets compile c ∧ ((serve compile req).run c).state.stats = c.stats := by
  -- six of the seven requests have no counter to change
  have quiet : (∀ body, req ≠ .addDpiPattern body) → Uncounted (serve compile req) →
      ¬ req.Resets compile c ∧ ((serve compile req).run c).state.stats = c.stats := by
    intro hne h
    refine ⟨?_, h.keeps c⟩
    rintro ⟨body, rfl, -⟩
    exact hne body rfl
  cases req with
  | addBlockedIp ip => exact Or.inr (quiet (by simp) (addBlockedIp_uncounted ip))
  | delBlockedIp ip => exact Or.inr (quiet (by simp) (delBlockedIp_uncounted ip))
  | addBlockedPort port proto =>
      exact Or.inr (quiet (by simp) (addBlockedPort_uncounted port proto))
  | delBlockedPort port proto =>
      exact Or.inr (quiet (by simp) (delBlockedPort_uncounted port proto))
  | setRateLimit body => exact Or.inr (quiet (by simp) (setRateLimit_uncounted body))
  | delDpiPattern patternName =>
      exact Or.inr (quiet (by simp) (delDpiPattern_uncounted patternName))
  | addDpiPattern body =>
      rcases stats_addDpiPattern compile c body with ⟨hok, hstats⟩ | ⟨hnot, hstats⟩
      · exact Or.inl ⟨⟨body, rfl, hok⟩, hstats⟩
      · refine Or.inr ⟨?_, hstats⟩
        rintro ⟨-, -, response, hresponse, hstatus⟩
        exact hnot response hresponse hstatus

/-! ## One event of the system -/

/-- The event sets the trust gauge back. -/
def FirewallApp.Resets (compile : ReCompile) (c : FirewallApp) (ev : Event) : Prop :=
  ∃ req, ev = .rest req ∧ req.Resets compile c

/-- An event bumps the counters of a packet-in, or sets the trust gauge back. -/
theorem stats_handle (compile : ReCompile) (c : FirewallApp) (ev : Event) :
    c.Resets compile ev ∧ (c.handle compile ev).1.stats =
        { c.stats with trustFlowsInstalled := 0 } ∨
      ¬ c.Resets compile ev ∧ c.stats.CountedUp (c.counters ev) (c.handle compile ev).1.stats := by
  have quiet : (∀ req, ev ≠ .rest req) →
      c.stats.CountedUp (c.counters ev) (c.handle compile ev).1.stats →
      ¬ c.Resets compile ev ∧ c.stats.CountedUp (c.counters ev) (c.handle compile ev).1.stats := by
    intro hne h
    refine ⟨?_, h⟩
    rintro ⟨req, rfl, -⟩
    exact hne req rfl
  cases ev with
  | handshake d => exact Or.inr (quiet (by simp) c.stats.countedUp_nil)
  | expire d e => exact Or.inr (quiet (by simp) c.stats.countedUp_nil)
  | rest req =>
      rcases stats_serve compile c req with ⟨hreset, hstats⟩ | ⟨hnot, hstats⟩
      · exact Or.inl ⟨⟨req, rfl, hreset⟩, hstats⟩
      · refine Or.inr ⟨?_, ?_⟩
        · rintro ⟨req', heq, hreset⟩
          cases heq
          exact hnot hreset
        · have hsame : (c.handle compile (.rest req)).1.stats = c.stats := hstats
          rw [hsame]
          exact c.stats.countedUp_nil
  | packetIn d now msg =>
      refine Or.inr (quiet (by simp) ?_)
      rw [FirewallApp.counters]
      by_cases hd : d ∈ c.datapaths.keys
      swap
      · simp only [FirewallApp.verdictOf?, FirewallApp.handle, if_neg hd]
        exact c.stats.countedUp_nil
      simp only [FirewallApp.handle, if_pos hd]
      -- each verdict has its own counters, but a flow that is blocked already counts in total only
      cases hv : c.verdictOf? (.packetIn d now msg) with
      | none =>
          rw [FirewallApp.verdictOf?, if_pos hd] at hv
          obtain ⟨-, tracker, hstate⟩ := packetIn_of_no_verdict hv
          rw [hstate]
          exact c.stats.countedUp_nil
      | some result =>
          obtain ⟨-, hverdict⟩ := verdictOf?_eq_some.mp hv
          cases result with
          | dpiBlocked => exact countedUp_of_dpiBlocked hd hverdict
          | allowed => exact countedUp_of_allowed hd hverdict
          | _ => exact countedUp_of_rejected hverdict (by simp) (by simp)

end SdnFirewall
