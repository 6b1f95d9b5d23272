import SdnFirewall.Packet.Mininet
import SdnFirewall.Controller.Segments

/-!
# The checks are a pipeline

The two loops over checks and the protocol dispatch come to one loop over a list of stages. No stage
that lets a packet pass disturbs the verdict of a later one, so the verdict is the first rejection
among the verdicts the stages would give on their own; and a rejected packet leaves what belongs to
the later stages as it was.
-/

namespace SdnFirewall

open Common OpenFlow Python

/-! ## Loops over checks -/

/-- Is the result anything but `ALLOWED`? -/
def isRejection : Except Exc CheckResult → Bool
  | .ok .allowed => false
  | _ => true

/-- The first result that is not `ALLOWED`, and `ALLOWED` if there is none. -/
def firstRejection (results : List (Except Exc CheckResult)) : Except Exc CheckResult :=
  (results.find? isRejection).getD (.ok .allowed)

/-- A check that lets a packet pass leaves the verdict of another check as it was. -/
def Undisturbed (p q : Fw CheckResult) : Prop :=
  ∀ c, (p.run c).val = .ok .allowed → (q.run (p.run c).state).val = (q.run c).val

/-- A check that changes nothing disturbs none. -/
theorem undisturbed_of_idle {p : Fw CheckResult} (h : ∀ c, (p.run c).state = c)
    (q : Fw CheckResult) : Undisturbed p q := by
  intro c _
  rw [h]

/-- The loop stops at a check that rejects, and goes on behind one that lets the packet pass. -/
theorem run_runChecks_cons (p : Fw CheckResult) (ps : List (Fw CheckResult)) (c : FirewallApp) :
    ((runChecks (p :: ps)).run c).val =
        (if isRejection (p.run c).val then (p.run c).val
          else ((runChecks ps).run (p.run c).state).val) ∧
      ((runChecks (p :: ps)).run c).state =
        if isRejection (p.run c).val then (p.run c).state
        else ((runChecks ps).run (p.run c).state).state := by
  simp only [runChecks, Prog.run_bind]
  cases hp : p.run c with
  | mk val state out =>
      cases val with
      | error e => exact ⟨rfl, rfl⟩
      | ok result =>
          by_cases hresult : result = .allowed
          · subst hresult
            exact ⟨rfl, rfl⟩
          · have hrej : isRejection (.ok result) = true := by
              cases result <;> first | rfl | exact absurd rfl hresult
            simp [hresult, hrej]

/-- Where no check disturbs a later one, the loop answers with the first rejection among the
verdicts the checks give on their own. -/
theorem val_runChecks {checks : List (Fw CheckResult)} (h : checks.Pairwise Undisturbed)
    (c : FirewallApp) :
    ((runChecks checks).run c).val = firstRejection (checks.map fun p => (p.run c).val) := by
  induction checks generalizing c with
  | nil => rfl
  | cons p ps ih =>
      obtain ⟨hp, hps⟩ := List.pairwise_cons.mp h
      rw [(run_runChecks_cons p ps c).1, firstRejection, List.map_cons, List.find?_cons]
      cases hrej : isRejection (p.run c).val with
      | true => rfl
      | false =>
          have hval : (p.run c).val = .ok .allowed := by
            revert hrej
            cases (p.run c).val with
            | error e => exact fun h => absurd h (by simp [isRejection])
            | ok result => cases result <;> simp [isRejection]
          have hsame : (ps.map fun q => (q.run (p.run c).state).val) =
              ps.map fun q => (q.run c).val :=
            List.map_congr_left fun q hq => hp q hq c hval
          rw [if_neg (by simp), ih hps, hsame]
          rfl

/-- Two loops one after the other are one loop. -/
theorem run_runChecks_append (ps qs : List (Fw CheckResult)) (c : FirewallApp) :
    (runChecks (ps ++ qs)).run c =
      ((runChecks ps).run c).andThen fun result c' =>
        (if result ≠ .allowed then pure result else runChecks qs : Fw CheckResult).run c' := by
  induction ps generalizing c with
  | nil =>
      simp only [List.nil_append, runChecks, Prog.run_pure, Outcome.andThen_ok, ne_eq,
        not_true_eq_false, if_false]
  | cons p ps ih =>
      simp only [List.cons_append, runChecks, Prog.run_bind]
      cases hp : p.run c with
      | mk val state out =>
          cases val with
          | error e => rfl
          | ok result =>
              by_cases hresult : result = .allowed
              · subst hresult
                simp only [Outcome.andThen_ok, ne_eq, not_true_eq_false, if_false, ih]
                cases (runChecks ps).run state with
                | mk val' state' out' => cases val' <;> simp
              · simp [hresult]

/-! ## The stages of a packet -/

/-- The stages every IPv4 packet goes through. -/
def sourceStages (datapath : Datapath) (now : ℚ) (ipPkt : IPv4) : List (Fw CheckResult) :=
  [checkIpBlock ipPkt.src, checkIpRateLimit datapath now ipPkt.src]

/-- The stages behind them, by protocol; `none` when the header they read was not parsed. -/
def transportStages? (pkt : Packet) (ipPkt : IPv4) (data : Bytes) :
    Option (List (Fw CheckResult)) :=
  if ipPkt.proto = IPPROTO_TCP then
    pkt.tcp.map fun tcpPkt =>
      [checkPortBlock 6 tcpPkt.dstPort, pure (checkTcpFlags tcpPkt),
        checkDpi ipPkt tcpPkt (extractTcpPayload data ipPkt tcpPkt)]
  else if ipPkt.proto = IPPROTO_UDP then
    pkt.udp.map fun udpPkt => [checkPortBlock 17 udpPkt.dstPort]
  else some []

/-- What the stages behind the source checks can be. -/
theorem transportStages?_cases {pkt : Packet} {ipPkt : IPv4} {data : Bytes}
    {stages : List (Fw CheckResult)} (h : transportStages? pkt ipPkt data = some stages) :
    (∃ tcpPkt, ipPkt.proto = 6 ∧ pkt.tcp = some tcpPkt ∧
      stages = [checkPortBlock 6 tcpPkt.dstPort, pure (checkTcpFlags tcpPkt),
        checkDpi ipPkt tcpPkt (extractTcpPayload data ipPkt tcpPkt)]) ∨
    (∃ udpPkt, ipPkt.proto = 17 ∧ pkt.udp = some udpPkt ∧
      stages = [checkPortBlock 17 udpPkt.dstPort]) ∨
    ipPkt.proto ≠ 6 ∧ ipPkt.proto ≠ 17 ∧ stages = [] := by
  unfold transportStages? at h
  split at h
  · rename_i hproto
    obtain ⟨tcpPkt, htcp, rfl⟩ := Option.map_eq_some_iff.mp h
    exact Or.inl ⟨tcpPkt, hproto, htcp, rfl⟩
  · rename_i htcp
    split at h
    · rename_i hproto
      obtain ⟨udpPkt, hudp, rfl⟩ := Option.map_eq_some_iff.mp h
      exact Or.inr (Or.inl ⟨udpPkt, hproto, hudp, rfl⟩)
    · rename_i hudp
      exact Or.inr (Or.inr ⟨htcp, hudp, (Option.some.inj h).symm⟩)

/-- The protocol dispatch runs the stages of the protocol. -/
theorem run_protocolHandler {pkt : Packet} {ipPkt : IPv4} {data : Bytes}
    {stages : List (Fw CheckResult)} (h : transportStages? pkt ipPkt data = some stages)
    (c : FirewallApp) :
    (protocolHandler pkt ipPkt data).run c = (runChecks stages).run c := by
  rcases transportStages?_cases h with ⟨tcpPkt, hproto, htcp, rfl⟩ | ⟨udpPkt, hproto, hudp, rfl⟩ |
    ⟨htcp, hudp, rfl⟩
  · rw [protocolHandler_tcp data hproto, htcp]
    rfl
  · rw [protocolHandler_udp data hproto, hudp, udpPacketHandler]
    simp only [Prog.run_bind, Prog.run_orRaise_some, Outcome.andThen_ok, run_checkPortBlock,
      runChecks, List.nil_append]
    split <;> simp
  · rw [protocolHandler_other data htcp hudp]
    rfl

/-- The handler of IPv4 packets runs all stages in one loop. -/
theorem run_ipv4PacketHandler {ipPkt : IPv4} {data : Bytes} {stages : List (Fw CheckResult)}
    (h : transportStages? (Packet.parse data) ipPkt data = some stages) (datapath : Datapath)
    (now : ℚ) (c : FirewallApp) :
    (ipv4PacketHandler datapath now data (some ipPkt)).run c =
      (runChecks (sourceStages datapath now ipPkt ++ stages)).run c := by
  rw [run_runChecks_append, sourceStages, ipv4PacketHandler]
  simp only [Prog.run_bind, Prog.run_orRaise_some, Outcome.andThen_ok, List.nil_append]
  refine congrArg (Outcome.andThen _) (funext₂ fun result c' => ?_)
  by_cases hresult : result = .allowed
  · simp only [hresult, ne_eq, not_true_eq_false, if_false, run_protocolHandler h]
  · simp only [hresult, ne_eq, not_false_eq_true, if_true]

/-! ## No stage disturbs a later one -/

/-- The check of the source only reads. -/
theorem state_checkIpBlock (ip : String) (c : FirewallApp) :
    ((checkIpBlock ip).run c).state = c := by
  simp only [checkIpBlock, Prog.run_bind, Prog.run_read, Outcome.andThen_ok]
  split
  · rfl
  · split <;> rfl

/-- The port check changes nothing. -/
theorem state_checkPortBlock (protoNum dstPort : ℕ) (c : FirewallApp) :
    ((checkPortBlock protoNum dstPort).run c).state = c := by
  rw [run_checkPortBlock]

/-- The rate limiter writes to the tracker and nothing else. -/
theorem state_checkIpRateLimit (datapath : Datapath) (now : ℚ) (ip : String) (c : FirewallApp) :
    ∃ tracker, ((checkIpRateLimit datapath now ip).run c).state =
      { c with rateTracker := tracker } := by
  rw [run_checkIpRateLimit]
  split <;> exact ⟨_, rfl⟩

/-- No stage behind the rate limiter reads the tracker. -/
theorem undisturbed_rateLimit {pkt : Packet} {ipPkt : IPv4} {data : Bytes}
    {stages : List (Fw CheckResult)} (h : transportStages? pkt ipPkt data = some stages)
    (datapath : Datapath) (now : ℚ) (ip : String) :
    ∀ q ∈ stages, Undisturbed (checkIpRateLimit datapath now ip) q := by
  intro q hq c _
  obtain ⟨tracker, hstate⟩ := state_checkIpRateLimit datapath now ip c
  rw [hstate]
  rcases transportStages?_cases h with ⟨tcpPkt, -, -, rfl⟩ | ⟨udpPkt, -, -, rfl⟩ | ⟨-, -, rfl⟩
  · simp only [List.mem_cons, List.not_mem_nil, or_false] at hq
    rcases hq with rfl | rfl | rfl
    · rw [run_checkPortBlock, run_checkPortBlock]
    · rfl
    · exact (dpiVerdict_eq _ ⟨ipPkt, tcpPkt, _⟩).trans (dpiVerdict_eq c ⟨ipPkt, tcpPkt, _⟩).symm
  · rw [List.mem_singleton.mp hq, run_checkPortBlock, run_checkPortBlock]
  · exact absurd hq List.not_mem_nil

/-- The transport stages do not disturb the ones behind them. -/
theorem pairwise_transportStages {pkt : Packet} {ipPkt : IPv4} {data : Bytes}
    {stages : List (Fw CheckResult)} (h : transportStages? pkt ipPkt data = some stages) :
    stages.Pairwise Undisturbed := by
  rcases transportStages?_cases h with ⟨tcpPkt, -, -, rfl⟩ | ⟨udpPkt, -, -, rfl⟩ | ⟨-, -, rfl⟩
  · refine .cons (fun q _ => undisturbed_of_idle (state_checkPortBlock 6 tcpPkt.dstPort) q) ?_
    refine .cons (fun q _ => undisturbed_of_idle (fun _ => rfl) q) ?_
    exact List.pairwise_singleton ..
  · exact List.pairwise_singleton ..
  · exact .nil

/-- Nor do the source stages. -/
theorem pairwise_stages {pkt : Packet} {ipPkt : IPv4} {data : Bytes}
    {stages : List (Fw CheckResult)} (h : transportStages? pkt ipPkt data = some stages)
    (datapath : Datapath) (now : ℚ) :
    (sourceStages datapath now ipPkt ++ stages).Pairwise Undisturbed := by
  refine .cons (fun q _ => undisturbed_of_idle (state_checkIpBlock ipPkt.src) q) ?_
  exact .cons (undisturbed_rateLimit h datapath now ipPkt.src) (pairwise_transportStages h)

/-! ## What a rejected packet leaves alone -/

/-- The stages behind the source checks give no source verdict, and they change nothing when the
port or the flags are rejected. -/
theorem protocolHandler_frame {pkt : Packet} {ipPkt : IPv4} {data : Bytes}
    {stages : List (Fw CheckResult)} (h : transportStages? pkt ipPkt data = some stages)
    (c : FirewallApp) (result : CheckResult)
    (hval : ((protocolHandler pkt ipPkt data).run c).val = .ok result) :
    ¬ result.OfSource ∧
      (result.OfPortOrFlags → ((protocolHandler pkt ipPkt data).run c).state = c) := by
  rcases transportStages?_cases h with ⟨tcpPkt, hproto, htcp, -⟩ | ⟨udpPkt, hproto, hudp, -⟩ |
    ⟨htcp, hudp, -⟩
  · rw [protocolHandler_tcp data hproto, htcp, run_tcpPacketHandler] at hval ⊢
    -- inspection changes its record, but gives neither a verdict on the port nor one on the flags
    by_cases hseg : c.segmentVerdict tcpPkt = .allowed
    · obtain ⟨state, out, hrun, -⟩ :=
        checkDpi_spec ⟨ipPkt, tcpPkt, extractTcpPayload data ipPkt tcpPkt⟩ c
      rw [if_pos hseg, hrun] at hval
      revert hval
      dsimp only
      split <;> (intro hval; cases hval; exact ⟨id, False.elim⟩)
    · rw [if_neg hseg] at hval ⊢
      obtain rfl : c.segmentVerdict tcpPkt = result := by simpa using hval
      refine ⟨fun hsource => ?_, fun _ => rfl⟩
      rcases segmentVerdict_cases c tcpPkt with hv | hv
      · exact hseg hv
      · revert hsource hv
        cases c.segmentVerdict tcpPkt <;> simp [CheckResult.OfSource, CheckResult.OfPortOrFlags]
  · rw [protocolHandler_udp data hproto, hudp, udpPacketHandler] at hval ⊢
    simp only [Prog.run_bind, Prog.run_orRaise_some, Outcome.andThen_ok, run_checkPortBlock,
      Except.ok.injEq] at hval ⊢
    refine ⟨?_, fun _ => trivial⟩
    rw [← hval]
    split <;> exact id
  · rw [protocolHandler_other data htcp hudp] at hval ⊢
    cases hval
    exact ⟨id, fun _ => rfl⟩

/-- The timestamps a source has in the tracker. -/
def FirewallApp.timestamps (c : FirewallApp) (ip : String) : List ℚ :=
  (c.rateTracker.get? ip).getD []

/-- A rate-limited packet leaves of the timestamps of every source the last ones. -/
theorem timestamps_setTracker_window (c : FirewallApp) (now : ℚ) (src ip : String) :
    (c.setTracker src (c.window now src)).timestamps ip <:+ c.timestamps ip := by
  rw [FirewallApp.timestamps, FirewallApp.setTracker_rateTracker, Dict.get?_set]
  split
  · rename_i hip
    rw [hip]
    exact List.dropWhile_suffix _
  · exact List.suffix_refl _

/-- The checks of an IPv4 packet whose headers were parsed: the verdict is the first rejection among
the verdicts the stages give on the state the packet finds, and a rejected packet leaves what
belongs to later stages alone. -/
theorem ipv4_pipeline (c : FirewallApp) (datapath : Datapath) (now : ℚ) (data : Bytes)
    (ipPkt : IPv4) (stages : List (Fw CheckResult))
    (h : transportStages? (Packet.parse data) ipPkt data = some stages) :
    let r := (ipv4PacketHandler datapath now data (some ipPkt)).run c
    r.val = firstRejection ((sourceStages datapath now ipPkt ++ stages).map fun stage =>
      (stage.run c).val) ∧
    (r.val = .ok .ipBlocked ∨ r.val = .ok .ipNotAllowlist →
      r.state.rateTracker = c.rateTracker ∧ r.state.trustTable = c.trustTable) ∧
    (r.val = .ok .rateLimited →
      (∀ ip, r.state.timestamps ip <:+ c.timestamps ip) ∧ r.state.trustTable = c.trustTable) ∧
    ∀ result, result.OfPortOrFlags → r.val = .ok result → r.state.trustTable = c.trustTable := by
  intro r
  refine ⟨?_, ?_⟩
  · show (Outcome.val ((ipv4PacketHandler datapath now data (some ipPkt)).run c)) = _
    rw [run_ipv4PacketHandler h]
    exact val_runChecks (pairwise_stages h datapath now) c
  -- what is left alone is read off the state after the source checks
  have hr : r = if c.sourceVerdict now ipPkt.src ≠ .allowed then
      ⟨.ok (c.sourceVerdict now ipPkt.src), c.clocked now ipPkt.src,
        if c.sourceVerdict now ipPkt.src = .rateLimited then
          [.sendMsg datapath.id (.flowMod (rateDropMod ipPkt.src))] else []⟩
      else (protocolHandler (Packet.parse data) ipPkt data).run (c.clocked now ipPkt.src) := by
    show (ipv4PacketHandler datapath now data (some ipPkt)).run c = _
    simp only [ipv4PacketHandler, Prog.run_bind, Prog.run_orRaise_some, Outcome.andThen_ok,
      run_sourceChecks, List.nil_append]
    by_cases hsrc : c.sourceVerdict now ipPkt.src = .allowed
    · simp [hsrc]
    · simp [hsrc]
  clear_value r
  subst hr
  by_cases hsrc : c.sourceVerdict now ipPkt.src = .allowed
  · -- the source has been let through, so the verdict is one of the protocol stages
    rw [if_neg (not_not.mpr hsrc)]
    have hframe := protocolHandler_frame h (c.clocked now ipPkt.src)
    refine ⟨?_, fun hval => absurd trivial (hframe _ hval).1, fun result hkind hval => ?_⟩
    · rintro (hval | hval) <;> exact absurd trivial (hframe _ hval).1
    · rw [(hframe _ hval).2 hkind, trustTable_clocked]
  · rw [if_pos hsrc]
    refine ⟨fun hval => ?_, fun hval => ?_, fun result _ _ => trustTable_clocked ..⟩
    · refine ⟨?_, trustTable_clocked ..⟩
      simp only [Except.ok.injEq] at hval
      rcases hval with hv | hv <;> simp only [FirewallApp.clocked, hv]
    · refine ⟨fun ip => ?_, trustTable_clocked ..⟩
      simp only [Except.ok.injEq] at hval
      simp only [FirewallApp.clocked, hval]
      exact timestamps_setTracker_window c now ipPkt.src ip

/-- A controller with one rule: no TCP segments to the web port. -/
def webBlocked : FirewallApp := { FirewallApp.init builtinEngine with blockedPorts := {(80, 6)} }

def webIp : IPv4 := ⟨5, 40, 6, "10.0.0.1", "10.0.0.2"⟩

/-- A segment of the web flow goes through the port, the flags and inspection. -/
theorem transportStages?_web :
    transportStages? (Packet.parse (tcpFrame 1 2 100 80 [])) webIp (tcpFrame 1 2 100 80 []) =
      some [checkPortBlock 6 80, pure .allowed, checkDpi webIp ⟨100, 80, 1, 5, 16⟩ []] := by
  have htcp : (Packet.parse (tcpFrame 1 2 100 80 [])).tcp = some ⟨100, 80, 1, 5, 16⟩ := by
    decide +kernel
  have hproto : webIp.proto = IPPROTO_TCP := rfl
  rw [transportStages?, if_pos hproto, htcp]
  rfl

/-- A blocked port is the first stage to reject it. -/
theorem ipv4_pipeline_webBlocked :
    let r := (ipv4PacketHandler ⟨1⟩ 0 (tcpFrame 1 2 100 80 []) (some webIp)).run webBlocked
    r.val = .ok .portBlocked ∧ r.state.trustTable = webBlocked.trustTable := by
  intro r
  obtain ⟨hval, -, -, hframe⟩ := ipv4_pipeline webBlocked ⟨1⟩ 0 (tcpFrame 1 2 100 80 []) webIp _
    transportStages?_web
  have hport : r.val = .ok .portBlocked := hval.trans (by decide +kernel)
  exact ⟨hport, hframe .portBlocked trivial hport⟩

end SdnFirewall
