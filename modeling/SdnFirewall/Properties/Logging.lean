import SdnFirewall.Packet.Mininet
import SdnFirewall.System.Tables

/-!
# Requests while logging fails

The broadcast to the dashboards raises when one of their connections is dead. Two of the three
flushes log before they do anything, so that a rule can stand without its flush; the third logs
last.
-/

namespace SdnFirewall

open Common OpenFlow Python

/-- How outward actions end when the `n`-th one raises `fails n`, should it be a broadcast. -/
def dashboards (fails : ℕ → Option Exc) (n : ℕ) : Effect → Except Exc Unit
  | .broadcast _ =>
    match fails n with
    | some e => .error e
    | none => .ok ()
  | .sendMsg _ _ => .ok ()

/-- A request that adds a rule: how the rule is found in a state, and what its flush deletes on the
switches and in the trust table. -/
inductive AddsRule (compile : ReCompile) (c : FirewallApp) :
    Request → (FirewallApp → Prop) → List OFPMsg → (TrustKey → Bool) → Prop
  | ip (ip : String) (hok : ipv4AddressOk ip = true) :
      AddsRule compile c (.addBlockedIp ip) (fun c' => ip ∈ c'.blockedIps)
        [.flowMod (deleteMod (ipv4SrcMatch ip)), .flowMod (deleteMod (ipv4DstMatch ip))]
        (TrustKey.hasIp ip)
  | port (port proto : String) (rule : ℕ × ℕ) (m : OFPMatch)
      (hrule : portRule port proto = .ok rule) (hm : dstPortMatch? rule.1 rule.2 = some m) :
      AddsRule compile c (.addBlockedPort port proto) (fun c' => rule ∈ c'.blockedPorts)
        [.flowMod (deleteMod m)] (TrustKey.hasPort rule.1 rule.2)
  | pattern (body name rawPattern description : Json) (dpi : DPIEngine) (pattern : DPIPattern)
      (hname : body.get "name" (.str "") = .ok name)
      (hpattern : body.get "pattern" (.str "") = .ok rawPattern)
      (hdescription : body.get "description" (.str "") = .ok description)
      (hadd : (DPIEngine.addPattern compile name rawPattern description).Yields c.dpi pattern dpi) :
      AddsRule compile c (.addDpiPattern (.ok body)) (fun c' => pattern ∈ c'.dpi.patterns)
        [.flowMod (deleteMod ipv4Match)] (fun _ => true)

/-- The flush is complete: every switch has been sent its deletes, and no selected record is
left. -/
def Flushed {α : Type} (r : FwOutcome α) (msgs : List OFPMsg) (selected : TrustKey → Bool) : Prop :=
  (∀ dp ∈ r.state.datapaths.values, ∀ m ∈ msgs, Effect.sendMsg dp.id m ∈ r.out) ∧
    ∀ k ∈ r.state.trustTable.keys, selected k = false

section Failing

variable (fails : ℕ → Option Exc)

/-- A log call keeps the entry, and returns when both of its broadcasts do. -/
theorem runWith_log (level msg src dst extra : String) (n : ℕ) (c : FirewallApp) :
    ∃ val out, (log level msg src dst extra).runWith (dashboards fails) n c =
        ⟨val, c.logged ⟨level, msg, src, dst, extra⟩, out⟩ ∧
      (∀ o ∈ out, o.IsBroadcast) ∧ (val = .ok () ↔ fails n = none ∧ fails (n + 1) = none) := by
  simp only [log, Prog.runWith_bind, Prog.runWith_modify, Prog.runWith_call, Prog.runWith_read,
    Outcome.andThen_ok, dashboards, List.nil_append, List.length_nil, Nat.add_zero]
  cases h : fails n with
  | some e => exact ⟨_, _, rfl, by simp [Effect.IsBroadcast], by simp⟩
  | none =>
      simp only [Outcome.andThen_ok, List.length_singleton]
      cases h' : fails (n + 1) with
      | some e => exact ⟨_, _, rfl, by simp [Effect.IsBroadcast], by simp⟩
      | none => exact ⟨_, _, rfl, by simp [Effect.IsBroadcast], by simp⟩

/-- However its broadcasts end, the call at most counts, logs and broadcasts. -/
abbrev QuietWith {α : Type} (p : Fw α) : Prop :=
  p.ConfinedWith (dashboards fails) FirewallApp.core Effect.IsBroadcast

/-- A log call is quiet even when a broadcast raises. -/
theorem log_quietWith (level msg src dst extra : String) :
    QuietWith fails (log level msg src dst extra) := by
  refine Prog.confinedWith_bind (Prog.confinedWith_modify fun _ => rfl) fun _ => ?_
  refine Prog.confinedWith_bind (Prog.confinedWith_call trivial) fun _ => ?_
  exact Prog.confinedWith_bind Prog.confinedWith_read fun c => Prog.confinedWith_call trivial

/-- So is the answer to an exception. -/
theorem answerValueError_quietWith (status : ℕ) (e : Exc) :
    QuietWith fails (answerValueError status e) := by
  cases e with
  | valueError msg => exact Prog.confinedWith_pure _
  | _ => exact Prog.confinedWith_raise _

/-- A loop over the switches that only sends is not disturbed. -/
theorem runWith_forDatapaths {body : Datapath → Fw Unit} {msgs : List OFPMsg}
    (hbody : ∀ dp c, (body dp).run c = ⟨.ok (), c, msgs.map (Effect.sendMsg dp.id)⟩) (n : ℕ)
    (c : FirewallApp) :
    (forDatapaths body).runWith (dashboards fails) n c =
      ⟨.ok (), c, c.datapaths.values.flatMap fun dp => msgs.map (Effect.sendMsg dp.id)⟩ := by
  have hrun := run_forDatapaths hbody c
  rw [Prog.runWith_eq_run, hrun]
  rw [hrun]
  simp only [List.mem_flatMap, List.mem_map]
  rintro o ⟨dp, -, m, -, rfl⟩ n
  rfl

/-- A flush that logs first: when a broadcast raises, nothing of it is done, and else all of it. -/
theorem runWith_logThenFlush (text : FirewallApp → String) {body : Datapath → Fw Unit}
    {msgs : List OFPMsg}
    (hbody : ∀ dp c, (body dp).run c = ⟨.ok (), c, msgs.map (Effect.sendMsg dp.id)⟩)
    (selected : TrustKey → Bool) (n : ℕ) (c : FirewallApp) :
    ∃ val state out,
      (do let c ← Prog.read
          log "info" (text c) "" "" ""
          forDatapaths body
          Prog.modify (·.dropTrust selected) : Fw Unit).runWith (dashboards fails) n c =
        ⟨val, state, out⟩ ∧
      if fails n = none ∧ fails (n + 1) = none then
        val = .ok () ∧ state.core = (c.dropTrust selected).core ∧
          ∀ dp ∈ c.datapaths.values, ∀ m ∈ msgs, Effect.sendMsg dp.id m ∈ out
      else (∃ e, val = .error e) ∧ state.core = c.core ∧ ∀ o ∈ out, o.IsBroadcast := by
  obtain ⟨val, out, hlog, hquiet, hval⟩ := runWith_log fails "info" (text c) "" "" "" n c
  simp only [Prog.runWith_bind, Prog.runWith_read, Prog.runWith_modify, Outcome.andThen_ok,
    List.nil_append, List.length_nil, Nat.add_zero, hlog, runWith_forDatapaths fails hbody,
    List.append_nil]
  by_cases hfails : fails n = none ∧ fails (n + 1) = none
  · rw [hval.mpr hfails]
    refine ⟨_, _, _, rfl, ?_⟩
    rw [if_pos hfails]
    refine ⟨rfl, rfl, fun dp hdp m hm => List.mem_append_right _ ?_⟩
    exact List.mem_flatMap.mpr ⟨dp, hdp, List.mem_map_of_mem hm⟩
  -- a log call returns only if both of its broadcasts do
  · cases val with
    | ok u => exact absurd (hval.mp rfl) hfails
    | error e =>
        refine ⟨_, _, _, rfl, ?_⟩
        rw [if_neg hfails]
        exact ⟨⟨e, rfl⟩, rfl, hquiet⟩

/-- What is left of a trust table after a flush is not what the flush selects. -/
theorem selected_of_mem_dropTrust {c c' : FirewallApp} {selected : TrustKey → Bool} {k : TrustKey}
    (h : c'.trustTable = (c.dropTrust selected).trustTable) (hk : k ∈ c'.trustTable.keys) :
    selected k = false := by
  rw [h, FirewallApp.dropTrust, Dict.mem_keys_iff, Dict.get?_filterKeys] at hk
  by_contra hsel
  simp [hsel] at hk

/-- A handler that adds a rule, flushes, and then at most logs, when the flush logs first. -/
theorem enforced_iff_of_logsFirst (add : FirewallApp → FirewallApp) (flush : Fw Unit)
    (msgs : List OFPMsg) (selected : TrustKey → Bool) (present : FirewallApp → Prop)
    {rest : Fw Response} {text : FirewallApp → String} {body : Datapath → Fw Unit}
    (hadd : ∀ c, (add c).datapaths = c.datapaths ∧ (add c).trustTable = c.trustTable)
    (hpresent : ∀ c c', c'.core = (add c).core ∨ c'.core = ((add c).dropTrust selected).core →
      present c')
    (hflush : flush = do
      let c ← Prog.read
      log "info" (text c) "" "" ""
      forDatapaths body
      Prog.modify (·.dropTrust selected))
    (hbody : ∀ dp c, (body dp).run c = ⟨.ok (), c, msgs.map (Effect.sendMsg dp.id)⟩)
    (hmsgs : msgs ≠ []) (hrest : QuietWith fails rest) (c : FirewallApp) :
    let r := (do Prog.modify add; flush; rest : Fw Response).runWith (dashboards fails) 0 c
    (¬ present r.state ∨ Flushed r msgs selected) ↔ (fails 0 = none ∧ fails 1 = none) ∨
      (c.datapaths.values = [] ∧ ∀ k ∈ c.trustTable.keys, selected k = false) := by
  obtain ⟨val, state, out, hrun, hcases⟩ :=
    runWith_logThenFlush fails text hbody selected 0 (add c)
  rw [← hflush] at hrun
  simp only [Prog.runWith_bind, Prog.runWith_modify, Outcome.andThen_ok, List.nil_append,
    List.length_nil, Nat.add_zero, hrun]
  -- the first two broadcasts are those of the log call the flush starts with
  by_cases hfails : fails 0 = none ∧ fails 1 = none
  · rw [if_pos hfails] at hcases
    obtain ⟨rfl, hcore, hsent⟩ := hcases
    simp only [Outcome.andThen_ok]
    have hcore' := (hrest.keeps (0 + out.length) state).trans hcore
    refine iff_of_true (Or.inr ⟨?_, ?_⟩) (Or.inl hfails)
    · have hdp := congrArg (fun c => c.datapaths) hcore'
      intro dp hmem m hm
      exact List.mem_append_left _ (hsent dp (by simpa [FirewallApp.dropTrust] using hdp ▸ hmem)
        m hm)
    · intro k hk
      exact selected_of_mem_dropTrust (congrArg (fun c => c.trustTable) hcore') hk
  -- the handler ends with the rule in place, so only an empty flush is complete
  · rw [if_neg hfails] at hcases
    obtain ⟨⟨e, rfl⟩, hcore, hquiet⟩ := hcases
    simp only [Outcome.andThen_error]
    have hdp : state.datapaths = c.datapaths :=
      Eq.trans (congrArg (fun c => c.datapaths) hcore) (hadd c).1
    have htable : state.trustTable = c.trustTable :=
      Eq.trans (congrArg (fun c => c.trustTable) hcore) (hadd c).2
    rw [or_iff_right (not_not.mpr (hpresent c state (Or.inl hcore))), or_iff_right hfails, Flushed,
      hdp, htable]
    refine and_congr_left fun _ => ?_
    constructor
    · intro h
      by_contra hne
      obtain ⟨dp, hmem⟩ := List.exists_mem_of_ne_nil _ hne
      obtain ⟨m, hm⟩ := List.exists_mem_of_ne_nil _ hmsgs
      exact hquiet _ (h dp hmem m hm)
    · intro h dp hmem
      rw [h] at hmem
      exact absurd hmem List.not_mem_nil

/-- Steps that at most log do not undo a flush. -/
theorem Flushed.of_core_eq {α β : Type} {r : FwOutcome α} {r' : FwOutcome β} {msgs : List OFPMsg}
    {selected : TrustKey → Bool} (h : Flushed r msgs selected)
    (hcore : r'.state.core = r.state.core) (hout : ∀ o ∈ r.out, o ∈ r'.out) :
    Flushed r' msgs selected := by
  have hdp : r'.state.datapaths = r.state.datapaths := congrArg (fun c => c.datapaths) hcore
  have htable : r'.state.trustTable = r.state.trustTable :=
    congrArg (fun c => c.trustTable) hcore
  rw [Flushed, hdp, htable]
  exact ⟨fun dp hmem m hm => hout _ (h.1 dp hmem m hm), h.2⟩

/-- What has been flushed stays so, whatever quiet call follows. -/
theorem Flushed.bind {α β : Type} {p : Fw α} {g : α → Fw β} {msgs : List OFPMsg}
    {selected : TrustKey → Bool} {n : ℕ} {c : FirewallApp}
    (h : Flushed (p.runWith (dashboards fails) n c) msgs selected)
    (hg : ∀ a, QuietWith fails (g a)) :
    Flushed ((p >>= g).runWith (dashboards fails) n c) msgs selected := by
  rw [Prog.runWith_bind, Outcome.andThen]
  split
  · exact h.of_core_eq ((hg _).keeps _ _) fun o ho => List.mem_append_left _ ho
  · exact h.of_core_eq rfl fun o ho => ho

/-- And whatever quiet handler catches what was raised. -/
theorem Flushed.tryCatch {α : Type} {p : Fw α} {handler : Exc → Fw α} {msgs : List OFPMsg}
    {selected : TrustKey → Bool} {n : ℕ} {c : FirewallApp}
    (h : Flushed (p.runWith (dashboards fails) n c) msgs selected)
    (hhandler : ∀ e, QuietWith fails (handler e)) :
    Flushed ((p.tryCatch handler).runWith (dashboards fails) n c) msgs selected := by
  rw [Prog.runWith_tryCatch, Outcome.orElse]
  split
  · exact h.of_core_eq rfl fun o ho => ho
  · exact h.of_core_eq ((hhandler _).keeps _ _) fun o ho => List.mem_append_left _ ho

/-- The flush for a new signature has done everything when it comes to its log call. -/
theorem flushed_flushAllTrustFlows (n : ℕ) (c : FirewallApp) :
    Flushed (flushAllTrustFlows.runWith (dashboards fails) n c) [.flowMod (deleteMod ipv4Match)]
      (fun _ => true) := by
  have hloop : ∀ (dp : Datapath) (c : FirewallApp),
      (do sendMsg dp (.flowMod (deleteMod ipv4Match))
          addFlow dp 300 ipv4Match [toController] : Fw Unit).run c =
        ⟨.ok (), c, [.flowMod (deleteMod ipv4Match),
          .flowMod (addFlowMod 300 ipv4Match [toController] 0 0 none)].map
            (Effect.sendMsg dp.id)⟩ := fun _ _ => rfl
  obtain ⟨val, out, hlog, -, -⟩ := runWith_log fails "info"
    ("Flushed " ++ toString c.trustTable.size ++ " trust entries (DPI pattern change)") "" "" ""
    (n + (c.datapaths.values.flatMap fun dp => [OFPMsg.flowMod (deleteMod ipv4Match),
      .flowMod (addFlowMod 300 ipv4Match [toController] 0 0 none)].map
        (Effect.sendMsg dp.id)).length) c.cleared
  rw [FirewallApp.cleared] at hlog
  simp only [flushAllTrustFlows, Prog.runWith_bind, Prog.runWith_read, Prog.runWith_modify,
    Outcome.andThen_ok, List.nil_append, List.length_nil, Nat.add_zero,
    runWith_forDatapaths fails hloop, hlog]
  refine ⟨fun dp hmem m hm => ?_, fun k hk => selected_of_mem_dropTrust (c := c) rfl hk⟩
  obtain rfl := List.mem_singleton.mp hm
  refine List.mem_append_left _ (List.mem_flatMap.mpr ⟨dp, hmem, ?_⟩)
  exact List.mem_map_of_mem List.mem_cons_self

/-- A request for a new signature flushes, whatever becomes of its log calls. -/
theorem flushed_addDpiPattern (compile : ReCompile) (c : FirewallApp)
    {body name rawPattern description : Json} {dpi : DPIEngine} {pattern : DPIPattern}
    (hname : body.get "name" (.str "") = .ok name)
    (hpattern : body.get "pattern" (.str "") = .ok rawPattern)
    (hdescription : body.get "description" (.str "") = .ok description)
    (hadd : (DPIEngine.addPattern compile name rawPattern description).Yields c.dpi pattern dpi) :
    Flushed ((addDpiPattern compile (.ok body)).runWith (dashboards fails) 0 c)
      [.flowMod (deleteMod ipv4Match)] (fun _ => true) := by
  rw [addDpiPattern]
  refine Flushed.tryCatch fails ?_ fun e => answerValueError_quietWith fails 400 e
  have hrun : (addPatternAndFlush compile body).runWith (dashboards fails) 0 c =
      (do flushAllTrustFlows
          log "info" ("DPI pattern added: " ++ pattern.name) "" "" ""
          pure { body := .pattern pattern.name } : Fw Response).runWith (dashboards fails) 0
        { c with dpi := dpi } := by
    simp only [addPatternAndFlush, hname, hpattern, hdescription, hadd.val, hadd.state,
      Prog.runWith_bind, Prog.runWith_ofExcept_ok, runWith_onDpi, Outcome.andThen_ok,
      List.nil_append, List.length_nil, Nat.add_zero]
  rw [hrun]
  refine Flushed.bind fails (flushed_flushAllTrustFlows fails 0 _) fun _ => ?_
  exact Prog.confinedWith_bind (log_quietWith fails ..) fun _ => Prog.confinedWith_pure _

/-- A request for a new rule leaves no rule without its flush exactly when it adds a signature, or
the log call before the flush goes through, or there is nothing to flush. -/
theorem enforced_iff (compile : ReCompile) {c : FirewallApp} {req : Request}
    {present : FirewallApp → Prop} {msgs : List OFPMsg} {selected : TrustKey → Bool}
    (h : AddsRule compile c req present msgs selected) :
    let r := (serve compile req).runWith (dashboards fails) 0 c
    (¬ present r.state ∨ Flushed r msgs selected) ↔
      (∃ body, req = .addDpiPattern body) ∨ (fails 0 = none ∧ fails 1 = none) ∨
        (c.datapaths.values = [] ∧ ∀ k ∈ c.trustTable.keys, selected k = false) := by
  have hrest : ∀ (level msg src dst extra : String) (answer : FirewallApp → Response),
      QuietWith fails (do log level msg src dst extra; let c ← Prog.read; pure (answer c)) :=
    fun _ _ _ _ _ answer => Prog.confinedWith_bind (log_quietWith fails ..) fun _ =>
      Prog.confinedWith_bind Prog.confinedWith_read fun c => Prog.confinedWith_pure _
  -- two of the handlers log before they flush, the third flushes before it logs
  cases h with
  | ip ip hok =>
      rw [serve, addBlockedIp, if_neg (not_not.mpr hok)]
      refine (enforced_iff_of_logsFirst fails
        (fun c => { c with blockedIps := insert ip c.blockedIps }) (flushFlowsForIp ip)
        [.flowMod (deleteMod (ipv4SrcMatch ip)), .flowMod (deleteMod (ipv4DstMatch ip))]
        (TrustKey.hasIp ip) (fun c' => ip ∈ c'.blockedIps) (fun _ => ⟨rfl, rfl⟩) ?_ rfl
        (fun _ _ => rfl) (List.cons_ne_nil _ _) (hrest _ _ _ _ _ _) c).trans
        (or_iff_right (not_exists.mpr fun _ => Request.noConfusion)).symm
      intro c c' hcore
      have hips : c'.blockedIps = insert ip c.blockedIps := by
        rcases hcore with h | h <;> exact congrArg (fun c => c.blockedIps) h
      rw [hips]
      exact Finset.mem_insert_self _ _
  | port port proto rule m hrule hm =>
      rw [serve, addBlockedPort, hrule]
      refine (enforced_iff_of_logsFirst fails
        (fun c => { c with blockedPorts := insert rule c.blockedPorts })
        (flushFlowsForPort rule.1 rule.2) [.flowMod (deleteMod m)]
        (TrustKey.hasPort rule.1 rule.2) (fun c' => rule ∈ c'.blockedPorts)
        (fun _ => ⟨rfl, rfl⟩) ?_ (by rw [flushFlowsForPort, hm]) (fun _ _ => rfl)
        (List.cons_ne_nil _ _) (hrest _ _ _ _ _ _) c).trans
        (or_iff_right (not_exists.mpr fun _ => Request.noConfusion)).symm
      intro c c' hcore
      have hports : c'.blockedPorts = insert rule c.blockedPorts := by
        rcases hcore with h | h <;> exact congrArg (fun c => c.blockedPorts) h
      rw [hports]
      exact Finset.mem_insert_self _ _
  | pattern body name rawPattern description dpi pattern hname hpattern hdescription hadd =>
      exact iff_of_true (Or.inr (flushed_addDpiPattern fails compile c hname hpattern hdescription
        hadd)) (Or.inl ⟨_, rfl⟩)

end Failing

/-- One switch is connected. -/
def oneSwitch : FirewallApp := (World.run builtinCompile builtinEngine [.handshake 1]).ctl

/-- Blocking the address of host 1 is a request of this kind. -/
theorem blocksHost : AddsRule builtinCompile oneSwitch (.addBlockedIp "10.0.0.1")
    (fun c' => "10.0.0.1" ∈ c'.blockedIps)
    [.flowMod (deleteMod (ipv4SrcMatch "10.0.0.1")), .flowMod (deleteMod (ipv4DstMatch "10.0.0.1"))]
    (TrustKey.hasIp "10.0.0.1") :=
  .ip "10.0.0.1" (by decide +kernel)

/-- With every broadcast going through, the rule is in force and the flush complete. -/
theorem enforced_iff_blocksHost :
    let r := (serve builtinCompile (.addBlockedIp "10.0.0.1")).runWith
      (dashboards fun _ => none) 0 oneSwitch
    (¬ "10.0.0.1" ∈ r.state.blockedIps ∨
      Flushed r [.flowMod (deleteMod (ipv4SrcMatch "10.0.0.1")),
        .flowMod (deleteMod (ipv4DstMatch "10.0.0.1"))] (TrustKey.hasIp "10.0.0.1")) :=
  (enforced_iff (fun _ => none) builtinCompile blocksHost).mpr (Or.inr (Or.inl ⟨rfl, rfl⟩))

/-- The address is listed as blocked, and its flows are left on the switch. -/
theorem not_enforced_deadDashboard :
    let r := (serve builtinCompile (.addBlockedIp "10.0.0.1")).runWith
      (dashboards fun _ => some (.osError "Broken pipe")) 0 oneSwitch
    ¬ (¬ "10.0.0.1" ∈ r.state.blockedIps ∨
      Flushed r [.flowMod (deleteMod (ipv4SrcMatch "10.0.0.1")),
        .flowMod (deleteMod (ipv4DstMatch "10.0.0.1"))] (TrustKey.hasIp "10.0.0.1")) := by
  rintro r (h | h)
  · exact h (by decide +kernel)
  · have hsent := h.1 ⟨1⟩ (by decide +kernel) _ List.mem_cons_self
    revert hsent
    decide +kernel

end SdnFirewall
