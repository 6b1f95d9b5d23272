import Mathlib.Data.Finset.Erase
import SdnFirewall.Controller.Handlers

/-!
# The REST handlers

The routes of the management interface that change something. Path segments arrive as strings, a
body as what decoding it gave: a JSON value or an exception.
-/

namespace SdnFirewall

open Common OpenFlow Python

/-- The body of a response. -/
inductive Body where
  | error (msg : String)
  | ok
  | blockedIps (ips : Finset String)
  | blockedPorts (ports : Finset (ℕ × ℕ))
  | pattern (name : String)
deriving DecidableEq

structure Response where
  status : ℕ := 200
  body : Body
deriving DecidableEq

/-- `_json` of an error. -/
def errorResponse (status : ℕ) (msg : String) : Response := { status, body := .error msg }

/-- `except ValueError as e`: the text is answered; other exceptions pass on. -/
def answerValueError (status : ℕ) : Exc → Fw Response
  | .valueError msg => pure (errorResponse status msg)
  | e => Prog.raise e

/-! ## Rules on addresses -/

def addBlockedIp (ip : String) : Fw Response := do
  if ¬ ipv4AddressOk ip then
    pure (errorResponse 400 ("Invalid IPv4 address: " ++ ip))
  else
    Prog.modify fun c => { c with blockedIps := insert ip c.blockedIps }
    flushFlowsForIp ip
    log "info" ("Rule added: block IP " ++ ip) ip "" ""
    let c ← Prog.read
    pure { body := .blockedIps c.blockedIps }

def delBlockedIp (ip : String) : Fw Response := do
  let c ← Prog.read
  if ¬ ipv4AddressOk ip then
    pure (errorResponse 400 ("Invalid IPv4 address: " ++ ip))
  else if ip ∉ c.blockedIps then
    pure (errorResponse 404 ("IP " ++ ip ++ " is not blocked"))
  else
    Prog.modify fun c => { c with blockedIps := c.blockedIps.erase ip }
    log "info" ("Rule removed: unblock IP " ++ ip) ip "" ""
    let c ← Prog.read
    pure { body := .blockedIps c.blockedIps }

/-! ## Rules on ports -/

/-- The checks both port routes start with: the rule the two path segments name, or the answer to
a bad one. -/
def portRule (port proto : String) : Except Response (ℕ × ℕ) :=
  match intOfString port, intOfString proto with
  | some portInt, some protoInt =>
    if ¬ (0 ≤ portInt ∧ portInt ≤ 65535) then
      .error (errorResponse 400 ("Port " ++ toString portInt ++ " out of range (0-65535)"))
    else if ¬ (protoInt = 6 ∨ protoInt = 17) then
      .error (errorResponse 400
        ("Proto must be 6 (TCP) or 17 (UDP), got " ++ toString protoInt))
    else .ok (portInt.toNat, protoInt.toNat)
  | _, _ => .error (errorResponse 400 "Port and proto must be integers")

def addBlockedPort (port proto : String) : Fw Response :=
  match portRule port proto with
  | .error response => pure response
  | .ok rule => do
    Prog.modify fun c => { c with blockedPorts := insert rule c.blockedPorts }
    flushFlowsForPort rule.1 rule.2
    log "info" ("Rule added: block protocol " ++ proto ++ " at port " ++ port) "" "" ""
    let c ← Prog.read
    pure { body := .blockedPorts c.blockedPorts }

def delBlockedPort (port proto : String) : Fw Response :=
  match portRule port proto with
  | .error response => pure response
  | .ok rule => do
    Prog.modify fun c => { c with blockedPorts := c.blockedPorts.erase rule }
    log "info" ("Rule removed: unblock protocol " ++ proto ++ " at port " ++ port) "" "" ""
    let c ← Prog.read
    pure { body := .blockedPorts c.blockedPorts }

/-! ## Rate limit -/

/-- `set_rate_limit`: the limit is stored before the window has been converted. -/
def setRateLimit (body : Except Exc Json) : Fw Response := do
  let body ← Prog.ofExcept body
  let c ← Prog.read
  let limit ← Prog.ofExcept (body.get "limit" (.int c.rateLimit))
  let limit ← Prog.ofExcept limit.toInt
  Prog.modify fun c => { c with rateLimit := limit }
  let c ← Prog.read
  let window ← Prog.ofExcept (body.get "window" (.float (.fin c.rateWindow)))
  let window ← Prog.ofExcept window.toInt
  Prog.modify fun c => { c with rateWindow := window }
  log "info" ("Rate limit updated: " ++ toString limit ++ " pkts/" ++ toString window ++ "s")
    "" "" ""
  pure { body := .ok }

/-! ## Signatures -/

/-- The part of `add_dpi_pattern` whose `ValueError`s are answered. -/
def addPatternAndFlush (compile : ReCompile) (body : Json) : Fw Response := do
  let name ← Prog.ofExcept (body.get "name" (.str ""))
  let rawPattern ← Prog.ofExcept (body.get "pattern" (.str ""))
  let description ← Prog.ofExcept (body.get "description" (.str ""))
  let pattern ← onDpi (DPIEngine.addPattern compile name rawPattern description)
  flushAllTrustFlows
  log "info" ("DPI pattern added: " ++ pattern.name) "" "" ""
  pure { body := .pattern pattern.name }

def addDpiPattern (compile : ReCompile) (body : Except Exc Json) : Fw Response :=
  match body with
  | .error (.valueError _) => pure (errorResponse 400 "Invalid JSON body")
  | .error e => Prog.raise e
  | .ok body => (addPatternAndFlush compile body).tryCatch (answerValueError 400)

/-- The call of `remove_pattern`; a `ValueError` of it is answered at once. -/
def tryRemovePattern (patternName : String) : Fw (Except Response Bool) :=
  (do
    let removed ← onDpi (DPIEngine.removePattern patternName)
    pure (.ok removed) : Fw (Except Response Bool)).tryCatch fun e => do
      let response ← answerValueError 403 e
      pure (.error response)

def delDpiPattern (patternName : String) : Fw Response := do
  match ← tryRemovePattern patternName with
  | .error response => pure response
  | .ok removed =>
    if ¬ removed then
      pure (errorResponse 404 ("Pattern \"" ++ patternName ++ "\" not found"))
    else
      log "info" ("DPI pattern removed: " ++ patternName) "" "" ""
      pure { body := .ok }

/-! ## Routing -/

/-- A request to a route that changes something. -/
inductive Request where
  | addBlockedIp (ip : String)
  | delBlockedIp (ip : String)
  | addBlockedPort (port proto : String)
  | delBlockedPort (port proto : String)
  | setRateLimit (body : Except Exc Json)
  | addDpiPattern (body : Except Exc Json)
  | delDpiPattern (patternName : String)

/-- The handler a request is routed to. -/
def serve (compile : ReCompile) : Request → Fw Response
  | .addBlockedIp ip => addBlockedIp ip
  | .delBlockedIp ip => delBlockedIp ip
  | .addBlockedPort port proto => addBlockedPort port proto
  | .delBlockedPort port proto => delBlockedPort port proto
  | .setRateLimit body => setRateLimit body
  | .addDpiPattern body => addDpiPattern compile body
  | .delDpiPattern patternName => delDpiPattern patternName

/-- The request is answered with success. -/
def Request.Accepted (compile : ReCompile) (c : FirewallApp) (req : Request) : Prop :=
  ∃ response, ((serve compile req).run c).val = .ok response ∧ response.status = 200

/-! ## One undisturbed run -/

/-- What a request can come to: the answer, the state up to counters and log, and the messages every
connected switch is sent. -/
inductive Served (compile : ReCompile) (c : FirewallApp) :
    Request → Except Exc Response → FirewallApp → List OFPMsg → Prop
  /-- A request answered with an error, or cut short by an exception. -/
  | refused (req : Request) (val : Except Exc Response)
      (hval : ∀ response, val = .ok response → response.status ≠ 200) :
      Served compile c req val c []
  | ipBlocked (ip : String) (body : Body) (hok : ipv4AddressOk ip = true) :
      Served compile c (.addBlockedIp ip) (.ok { body })
        (({ c with blockedIps := insert ip c.blockedIps } : FirewallApp).dropTrust
          (TrustKey.hasIp ip))
        [.flowMod (deleteMod (ipv4SrcMatch ip)), .flowMod (deleteMod (ipv4DstMatch ip))]
  | ipUnblocked (ip : String) (body : Body) (hmem : ip ∈ c.blockedIps) :
      Served compile c (.delBlockedIp ip) (.ok { body })
        { c with blockedIps := c.blockedIps.erase ip } []
  | portBlocked (port proto : String) (rule : ℕ × ℕ) (m : OFPMatch) (body : Body)
      (hrule : portRule port proto = .ok rule) (hm : dstPortMatch? rule.1 rule.2 = some m) :
      Served compile c (.addBlockedPort port proto) (.ok { body })
        (({ c with blockedPorts := insert rule c.blockedPorts } : FirewallApp).dropTrust
          (TrustKey.hasPort rule.1 rule.2))
        [.flowMod (deleteMod m)]
  | portUnblocked (port proto : String) (rule : ℕ × ℕ) (body : Body)
      (hrule : portRule port proto = .ok rule) :
      Served compile c (.delBlockedPort port proto) (.ok { body })
        { c with blockedPorts := c.blockedPorts.erase rule } []
  | rateLimit (body : Except Exc Json) (val : Except Exc Response) (limit : ℤ) (window : ℚ) :
      Served compile c (.setRateLimit body) val
        { c with rateLimit := limit, rateWindow := window } []
  | patternAdded (body : Json) (name rawPattern description : Json) (dpi : DPIEngine)
      (pattern : DPIPattern)
      (hadd : (DPIEngine.addPattern compile name rawPattern description).Yields c.dpi pattern dpi) :
      Served compile c (.addDpiPattern (.ok body)) (.ok { body := .pattern pattern.name })
        (({ c with dpi } : FirewallApp).dropTrust fun _ => true)
        [.flowMod (deleteMod ipv4Match),
         .flowMod (addFlowMod 300 ipv4Match [toController] 0 0 none)]
  | patternRemoved (patternName : String) (dpi : DPIEngine)
      (hremove : (DPIEngine.removePattern patternName).Yields c.dpi true dpi) :
      Served compile c (.delDpiPattern patternName) (.ok { body := .ok }) { c with dpi } []

/-- The outcome of a call does what `Served` says of it. -/
def Serves (compile : ReCompile) (c : FirewallApp) (req : Request) (r : FwOutcome Response) :
    Prop :=
  ∃ c' msgs, Served compile c req r.val c' msgs ∧ r.state.core = c'.core ∧
    ∃ before after, r.out = before ++ (c.datapaths.values.flatMap fun dp =>
        msgs.map (Effect.sendMsg dp.id)) ++ after ∧
      (∀ o ∈ before, o.IsBroadcast) ∧ ∀ o ∈ after, o.IsBroadcast

/-- A log call only broadcasts. -/
theorem logOut_broadcasts (c : FirewallApp) (entry : LogEntry) :
    ∀ o ∈ logOut c entry, o.IsBroadcast := by
  intro o ho
  simp only [logOut, List.mem_cons, List.not_mem_nil, or_false] at ho
  rcases ho with rfl | rfl <;> trivial

/-- A call that is answered with an error, or cut short by an exception, before it has stored or
sent anything. -/
def Refused (c : FirewallApp) (r : FwOutcome Response) : Prop :=
  ∃ val, r = ⟨val, c, []⟩ ∧ ∀ response, val = .ok response → response.status ≠ 200

/-- A call that is answered with status 200: the state it leaves, up to counters and log, and the
messages it sends to every connected switch. -/
structure Answered (c : FirewallApp) (body : Body) (c' : FirewallApp) (msgs : List OFPMsg)
    (r : FwOutcome Response) : Prop where
  val : r.val = .ok { body }
  core : r.state.core = c'.core
  out : ∃ before after, r.out = before ++ (c.datapaths.values.flatMap fun dp =>
      msgs.map (Effect.sendMsg dp.id)) ++ after ∧
    (∀ o ∈ before, o.IsBroadcast) ∧ ∀ o ∈ after, o.IsBroadcast

section Outcomes

variable {compile : ReCompile} {c c' : FirewallApp} {req : Request} {r : FwOutcome Response}
  {body : Body} {msgs : List OFPMsg}

/-- An answer of another status, given before anything is stored, is a refusal. -/
theorem refused_response {response : Response} (h : response.status ≠ 200) :
    Refused c ⟨.ok response, c, []⟩ :=
  ⟨_, rfl, by rintro _ ⟨⟩; exact h⟩

/-- So is an error answer. -/
theorem refused_error (c : FirewallApp) {status : ℕ} (msg : String) (hstatus : status ≠ 200) :
    Refused c ⟨.ok (errorResponse status msg), c, []⟩ :=
  refused_response hstatus

/-- An exception that an `except ValueError` meets is answered or passed on, in the old state. -/
theorem refused_answerValueError {status : ℕ} (hstatus : status ≠ 200) (e : Exc) :
    Refused c ((answerValueError status e).run c) := by
  cases e with
  | valueError msg => exact refused_error c msg hstatus
  | _ => exact ⟨_, rfl, by simp⟩

/-- A call that tells the switches nothing. -/
theorem answered_quiet (hval : r.val = .ok { body }) (hcore : r.state.core = c'.core)
    (hout : ∀ o ∈ r.out, o.IsBroadcast) : Answered c body c' [] r :=
  ⟨hval, hcore, r.out, [], by simp, hout, by simp⟩

/-- A refusal is one of the ways a request is served. -/
theorem Refused.serves (h : Refused c r) : Serves compile c req r := by
  obtain ⟨val, rfl, hval⟩ := h
  exact ⟨c, [], .refused req val hval, rfl, [], [], by simp, by simp, by simp⟩

/-- So is an answer that comes with what the request is for. -/
theorem Answered.serves (h : Answered c body c' msgs r)
    (hserved : Served compile c req (.ok { body }) c' msgs) : Serves compile c req r := by
  refine ⟨c', msgs, ?_, h.core, h.out⟩
  rw [h.val]
  exact hserved

/-- A refused request is not accepted. -/
theorem Refused.not_accepted (h : Refused c ((serve compile req).run c)) :
    ¬ req.Accepted compile c := by
  obtain ⟨val, hrun, hval⟩ := h
  rintro ⟨response, hresponse, hstatus⟩
  rw [hrun] at hresponse
  exact hval response hresponse hstatus

/-- An answered request is. -/
theorem Answered.accepted (h : Answered c body c' msgs ((serve compile req).run c)) :
    req.Accepted compile c :=
  ⟨_, h.val, rfl⟩

end Outcomes

/-! ## How each request ends -/

/-- A request to block an address is refused for its text, or served. -/
theorem run_addBlockedIp_cases (c : FirewallApp) (ip : String) :
    (¬ ipv4AddressOk ip = true ∧ Refused c ((addBlockedIp ip).run c)) ∨
      ipv4AddressOk ip = true ∧ ∃ body, Answered c body
        (({ c with blockedIps := insert ip c.blockedIps } : FirewallApp).dropTrust
          (TrustKey.hasIp ip))
        [.flowMod (deleteMod (ipv4SrcMatch ip)), .flowMod (deleteMod (ipv4DstMatch ip))]
        ((addBlockedIp ip).run c) := by
  unfold addBlockedIp
  by_cases hok : ipv4AddressOk ip = true
  · refine Or.inr ⟨hok, ?_⟩
    rw [if_neg (not_not.mpr hok)]
    simp only [Prog.run_bind, Prog.run_modify, run_flushFlowsForIp, run_log, Prog.run_read,
      Prog.run_pure, Outcome.andThen_ok, List.nil_append, List.append_nil]
    exact ⟨_, rfl, rfl, _, _, rfl, logOut_broadcasts _ _, logOut_broadcasts _ _⟩
  · refine Or.inl ⟨hok, ?_⟩
    rw [if_pos hok]
    exact refused_error _ _ (by decide)

/-- Withdrawing an address is refused, or the address was blocked and is no longer. -/
theorem run_delBlockedIp_cases (c : FirewallApp) (ip : String) :
    Refused c ((delBlockedIp ip).run c) ∨
      ip ∈ c.blockedIps ∧ ∃ body, Answered c body
        { c with blockedIps := c.blockedIps.erase ip } [] ((delBlockedIp ip).run c) := by
  simp only [delBlockedIp, Prog.run_bind, Prog.run_read, Outcome.andThen_ok, List.nil_append]
  by_cases hok : ipv4AddressOk ip = true
  swap
  · rw [if_pos hok]
    exact Or.inl (refused_error _ _ (by decide))
  rw [if_neg (not_not.mpr hok)]
  by_cases hmem : ip ∈ c.blockedIps
  · refine Or.inr ⟨hmem, ?_⟩
    rw [if_neg (not_not.mpr hmem)]
    simp only [Prog.run_bind, Prog.run_modify, run_log, Prog.run_read, Prog.run_pure,
      Outcome.andThen_ok, List.nil_append, List.append_nil]
    exact ⟨_, answered_quiet rfl rfl (logOut_broadcasts _ _)⟩
  · rw [if_pos hmem]
    exact Or.inl (refused_error _ _ (by decide))

/-- The protocols a port rule may name have a match. -/
theorem dstPortMatch?_of_portRule {port proto : String} {rule : ℕ × ℕ}
    (h : portRule port proto = .ok rule) :
    (rule.2 = 6 ∨ rule.2 = 17) ∧ ∃ m, dstPortMatch? rule.1 rule.2 = some m := by
  have hproto : rule.2 = 6 ∨ rule.2 = 17 := by
    unfold portRule at h
    split at h
    · split at h
      · exact absurd h (by simp)
      · split at h
        · exact absurd h (by simp)
        · rename_i hp
          cases h
          rcases not_not.mp hp with rfl | rfl <;> simp
    · exact absurd h (by simp)
  refine ⟨hproto, ?_⟩
  rcases hproto with h | h <;> rw [h] <;> exact ⟨_, rfl⟩

/-- A bad pair of path segments is answered with an error. -/
theorem status_of_portRule {port proto : String} {response : Response}
    (h : portRule port proto = .error response) : response.status ≠ 200 := by
  unfold portRule at h
  split at h
  · split at h
    · cases h; simp [errorResponse]
    · split at h
      · cases h; simp [errorResponse]
      · cases h
  · cases h; simp [errorResponse]

/-- Blocking a port is refused if the texts name none, and answered with its flush otherwise. -/
theorem run_addBlockedPort_cases (c : FirewallApp) (port proto : String) :
    ((∃ response, portRule port proto = .error response) ∧
        Refused c ((addBlockedPort port proto).run c)) ∨
      ∃ rule m, portRule port proto = .ok rule ∧ dstPortMatch? rule.1 rule.2 = some m ∧
        ∃ body, Answered c body
          (({ c with blockedPorts := insert rule c.blockedPorts } : FirewallApp).dropTrust
            (TrustKey.hasPort rule.1 rule.2))
          [.flowMod (deleteMod m)] ((addBlockedPort port proto).run c) := by
  unfold addBlockedPort
  cases hrule : portRule port proto with
  | error response =>
      exact Or.inl ⟨⟨response, rfl⟩, refused_response (status_of_portRule hrule)⟩
  | ok rule =>
      obtain ⟨-, m, hm⟩ := dstPortMatch?_of_portRule hrule
      refine Or.inr ⟨rule, m, rfl, hm, ?_⟩
      simp only [Prog.run_bind, Prog.run_modify, run_flushFlowsForPort hm, run_log,
        Prog.run_read, Prog.run_pure, Outcome.andThen_ok, List.nil_append, List.append_nil]
      exact ⟨_, rfl, rfl, _, _, rfl, logOut_broadcasts _ _, logOut_broadcasts _ _⟩

/-- Withdrawing a port is refused, or the port the texts name is no longer blocked. -/
theorem run_delBlockedPort_cases (c : FirewallApp) (port proto : String) :
    Refused c ((delBlockedPort port proto).run c) ∨
      ∃ rule, portRule port proto = .ok rule ∧ ∃ body, Answered c body
        { c with blockedPorts := c.blockedPorts.erase rule } []
        ((delBlockedPort port proto).run c) := by
  unfold delBlockedPort
  cases hrule : portRule port proto with
  | error response => exact Or.inl (refused_response (status_of_portRule hrule))
  | ok rule =>
      refine Or.inr ⟨rule, rfl, ?_⟩
      simp only [Prog.run_bind, Prog.run_modify, run_log, Prog.run_read, Prog.run_pure,
        Outcome.andThen_ok, List.nil_append, List.append_nil]
      exact ⟨_, answered_quiet rfl rfl (logOut_broadcasts _ _)⟩

/-- Nothing is stored before the signature has been compiled. -/
theorem run_addDpiPattern_cases (compile : ReCompile) (c : FirewallApp) (body : Except Exc Json) :
    Refused c ((addDpiPattern compile body).run c) ∨
      ∃ json name rawPattern description dpi pattern, body = .ok json ∧
        json.get "name" (.str "") = .ok name ∧ json.get "pattern" (.str "") = .ok rawPattern ∧
        (DPIEngine.addPattern compile name rawPattern description).Yields c.dpi pattern dpi ∧
        Answered c (.pattern pattern.name)
          (({ c with dpi := dpi } : FirewallApp).dropTrust fun _ => true)
          [.flowMod (deleteMod ipv4Match),
            .flowMod (addFlowMod 300 ipv4Match [toController] 0 0 none)]
          ((addDpiPattern compile body).run c) := by
  -- an exception before the flush is answered or passed on, with nothing stored
  have caught : ∀ e, Refused c ((answerValueError 400 e).run c) :=
    refused_answerValueError (by decide)
  unfold addDpiPattern
  cases body with
  | error e =>
      cases e with
      | valueError msg => exact Or.inl (refused_error _ _ (by decide))
      | _ => exact Or.inl ⟨_, rfl, by simp⟩
  | ok json =>
      simp only [addPatternAndFlush, Prog.run_tryCatch, Prog.run_bind]
      cases hname : json.get "name" (.str "") with
      | error e => exact Or.inl (caught e)
      | ok name =>
      cases hraw : json.get "pattern" (.str "") with
      | error e => exact Or.inl (caught e)
      | ok rawPattern =>
      cases json.get "description" (.str "") with
      | error e => exact Or.inl (caught e)
      | ok description =>
      simp only [Prog.run_ofExcept_ok, Outcome.andThen_ok, List.nil_append, run_onDpi]
      have hatomic := DPIEngine.allOrNothing_addPattern compile name rawPattern description
      cases hadd : ((DPIEngine.addPattern compile name rawPattern description).run c.dpi).val with
      | error e =>
          rw [state_of_allOrNothing hatomic hadd]
          exact Or.inl (caught e)
      | ok pattern =>
          refine Or.inr ⟨json, name, rawPattern, description, _, pattern, rfl, hname, hraw,
            ⟨hadd, rfl⟩, ?_⟩
          simp only [Outcome.andThen_ok, run_flushAllTrustFlows, run_log, Prog.run_pure,
            List.nil_append, List.append_nil, Outcome.orElse_ok]
          refine ⟨rfl, rfl, [], _, (List.append_assoc ..).trans rfl, by simp, ?_⟩
          intro o ho
          rcases List.mem_append.mp ho with ho | ho <;> exact logOut_broadcasts _ _ o ho

/-- Removing a pattern ends with the answer to an exception, or with the engine it leaves. -/
theorem run_tryRemovePattern (c : FirewallApp) (patternName : String) :
    (∃ e, (tryRemovePattern patternName).run c =
        ((answerValueError 403 e).run c).andThen fun response c => ⟨.ok (.error response), c, []⟩) ∨
      ∃ dpi removed, (DPIEngine.removePattern patternName).Yields c.dpi removed dpi ∧
        (tryRemovePattern patternName).run c = ⟨.ok (.ok removed), { c with dpi := dpi }, []⟩ := by
  simp only [tryRemovePattern, Prog.run_tryCatch, Prog.run_bind, run_onDpi]
  have hatomic := DPIEngine.allOrNothing_removePattern patternName
  cases hremove : ((DPIEngine.removePattern patternName).run c.dpi).val with
  | error e =>
      rw [state_of_allOrNothing hatomic hremove]
      exact Or.inl ⟨e, rfl⟩
  | ok removed => exact Or.inr ⟨_, removed, ⟨hremove, rfl⟩, rfl⟩

/-- Withdrawing a pattern is refused, or the engine has removed it. -/
theorem run_delDpiPattern_cases (c : FirewallApp) (patternName : String) :
    Refused c ((delDpiPattern patternName).run c) ∨
      ∃ dpi, (DPIEngine.removePattern patternName).Yields c.dpi true dpi ∧
        Answered c .ok { c with dpi := dpi } [] ((delDpiPattern patternName).run c) := by
  rw [delDpiPattern, Prog.run_bind]
  rcases run_tryRemovePattern c patternName with ⟨e, hrun⟩ | ⟨dpi, removed, hremove, hrun⟩
  · obtain ⟨val, hval, hstatus⟩ := refused_answerValueError (by decide : 403 ≠ 200) e (c := c)
    rw [hrun, hval]
    refine Or.inl ⟨val, ?_, hstatus⟩
    cases val <;> rfl
  · rw [hrun, Outcome.andThen_ok]
    cases removed with
    | true =>
        refine Or.inr ⟨dpi, hremove, ?_⟩
        simp only [Prog.run_bind, run_log, Prog.run_pure, Outcome.andThen_ok,
          List.nil_append, List.append_nil, not_true_eq_false, if_false]
        exact answered_quiet rfl rfl (logOut_broadcasts _ _)
    | false =>
        obtain rfl : dpi = c.dpi := DPIEngine.eq_of_not_removed hremove
        exact Or.inl (refused_error _ _ (by decide))

/-- An address that can be read is accepted. -/
theorem accepted_addBlockedIp (compile : ReCompile) (c : FirewallApp) {ip : String}
    (hok : ipv4AddressOk ip = true) : (Request.addBlockedIp ip).Accepted compile c := by
  rcases run_addBlockedIp_cases c ip with ⟨hbad, -⟩ | ⟨-, body, h⟩
  · exact absurd hok hbad
  · exact h.accepted

/-- Only an address is accepted to be blocked. -/
theorem ipv4AddressOk_of_accepted {compile : ReCompile} {c : FirewallApp} {ip : String}
    (h : (Request.addBlockedIp ip).Accepted compile c) : ipv4AddressOk ip = true := by
  rcases run_addBlockedIp_cases c ip with ⟨-, hrefused⟩ | ⟨hok, -⟩
  · exact absurd h hrefused.not_accepted
  · exact hok

/-- A port rule that can be read is accepted. -/
theorem accepted_addBlockedPort (compile : ReCompile) (c : FirewallApp) {port proto : String}
    {rule : ℕ × ℕ} (hrule : portRule port proto = .ok rule) :
    (Request.addBlockedPort port proto).Accepted compile c := by
  rcases run_addBlockedPort_cases c port proto with
    ⟨⟨response, herror⟩, -⟩ | ⟨rule', m, -, -, body, h⟩
  · rw [hrule] at herror
    cases herror
  · exact h.accepted

/-! ## What each request comes to -/

/-- A call that tells the switches nothing. -/
theorem serves_quiet {compile : ReCompile} {c c' : FirewallApp} {req : Request}
    {r : FwOutcome Response} (h : Served compile c req r.val c' [])
    (hcore : r.state.core = c'.core) (hout : ∀ o ∈ r.out, o.IsBroadcast) :
    Serves compile c req r :=
  ⟨c', [], h, hcore, r.out, [], by simp, hout, by simp⟩

/-- A request about the rate is served in one of the ways that are listed. -/
theorem serves_setRateLimit (compile : ReCompile) (c : FirewallApp) (body : Except Exc Json) :
    Serves compile c (.setRateLimit body) ((setRateLimit body).run c) := by
  have quiet : ∀ (val : Except Exc Response) (limit : ℤ) (window : ℚ),
      Serves compile c (.setRateLimit body)
        ⟨val, { c with rateLimit := limit, rateWindow := window }, []⟩ :=
    fun val limit window => serves_quiet (.rateLimit body val limit window) rfl (by simp)
  unfold setRateLimit
  cases body with
  | error e => exact quiet _ c.rateLimit c.rateWindow
  | ok json =>
      simp only [Prog.run_bind, Prog.run_ofExcept_ok, Prog.run_read, Outcome.andThen_ok,
        List.nil_append]
      cases json.get "limit" (.int c.rateLimit) with
      | error e => exact quiet _ c.rateLimit c.rateWindow
      | ok limit =>
          simp only [Prog.run_ofExcept_ok, Outcome.andThen_ok, List.nil_append]
          cases limit.toInt with
          | error e => exact quiet _ c.rateLimit c.rateWindow
          | ok limit =>
              simp only [Prog.run_ofExcept_ok, Prog.run_modify, Outcome.andThen_ok,
                List.nil_append]
              -- the limit is stored by now, so what fails from here on leaves it behind
              cases json.get "window" (.float (.fin c.rateWindow)) with
              | error e => exact quiet _ limit c.rateWindow
              | ok window =>
                  simp only [Prog.run_ofExcept_ok, Outcome.andThen_ok, List.nil_append]
                  cases window.toInt with
                  | error e => exact quiet _ limit c.rateWindow
                  | ok window =>
                      simp only [Prog.run_ofExcept_ok, run_log, Prog.run_pure,
                        Outcome.andThen_ok, List.nil_append, List.append_nil]
                      exact serves_quiet (.rateLimit _ _ limit window) rfl
                        (logOut_broadcasts _ _)

/-- Every request is served as listed. -/
theorem serves_serve (compile : ReCompile) (c : FirewallApp) (req : Request) :
    Serves compile c req ((serve compile req).run c) := by
  -- one lemma for each handler says how its call can go
  cases req with
  | addBlockedIp ip =>
      rcases run_addBlockedIp_cases c ip with ⟨-, h⟩ | ⟨hok, body, h⟩
      · exact h.serves
      · exact h.serves (.ipBlocked ip body hok)
  | delBlockedIp ip =>
      rcases run_delBlockedIp_cases c ip with h | ⟨hmem, body, h⟩
      · exact h.serves
      · exact h.serves (.ipUnblocked ip body hmem)
  | addBlockedPort port proto =>
      rcases run_addBlockedPort_cases c port proto with
        ⟨-, h⟩ | ⟨rule, m, hrule, hm, body, h⟩
      · exact h.serves
      · exact h.serves (.portBlocked port proto rule m body hrule hm)
  | delBlockedPort port proto =>
      rcases run_delBlockedPort_cases c port proto with h | ⟨rule, hrule, body, h⟩
      · exact h.serves
      · exact h.serves (.portUnblocked port proto rule body hrule)
  | setRateLimit body => exact serves_setRateLimit ..
  | addDpiPattern body =>
      rcases run_addDpiPattern_cases compile c body with h |
        ⟨json, name, rawPattern, description, dpi, pattern, rfl, -, -, hadd, h⟩
      · exact h.serves
      · exact h.serves (.patternAdded json name rawPattern description dpi pattern hadd)
  | delDpiPattern patternName =>
      rcases run_delDpiPattern_cases c patternName with h | ⟨dpi, hremove, h⟩
      · exact h.serves
      · exact h.serves (.patternRemoved patternName dpi hremove)

end SdnFirewall
