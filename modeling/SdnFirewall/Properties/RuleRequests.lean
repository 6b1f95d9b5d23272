import SdnFirewall.Packet.Mininet
import SdnFirewall.System.World

/-!
# Requests that add or delete a rule

Each of the six routes validates what it was given before it stores anything. A request that is not
answered with status 200, by an error answer or by an exception, has touched nothing; one that is
has the rule it names in force, or no longer in force.
-/

namespace SdnFirewall

open Common OpenFlow Python

/-- The requests that add or delete a rule. -/
def Request.IsRule : Request → Prop
  | .setRateLimit _ => False
  | _ => True

/-- The rule a request names is there after an add, and is not there after a delete. -/
def Request.Done (c : FirewallApp) : Request → Prop
  | .addBlockedIp ip => ip ∈ c.blockedIps
  | .delBlockedIp ip => ip ∉ c.blockedIps
  | .addBlockedPort port proto => ∃ portInt protoInt : ℕ,
      intOfString port = some (portInt : ℤ) ∧ intOfString proto = some (protoInt : ℤ) ∧
        (portInt, protoInt) ∈ c.blockedPorts
  | .delBlockedPort port proto => ∃ portInt protoInt : ℕ,
      intOfString port = some (portInt : ℤ) ∧ intOfString proto = some (protoInt : ℤ) ∧
        (portInt, protoInt) ∉ c.blockedPorts
  | .addDpiPattern body => ∃ json name rawPattern, body = .ok json ∧
      json.get "name" (.str "") = .ok (.str name) ∧
        json.get "pattern" (.str "") = .ok (.str rawPattern) ∧
          ∃ p ∈ c.dpi.patterns, p.name = strip name ∧ p.rawPattern = rawPattern
  | .delDpiPattern patternName => ∀ p ∈ c.dpi.patterns, p.name ≠ patternName
  | .setRateLimit _ => True

/-- Counters and log have no part in it. -/
theorem Request.done_of_core {c c' : FirewallApp} (h : c.core = c'.core) {req : Request}
    (hdone : req.Done c') : req.Done c := by
  have hips : c.blockedIps = c'.blockedIps := congrArg (fun c => c.blockedIps) h
  have hports : c.blockedPorts = c'.blockedPorts := congrArg (fun c => c.blockedPorts) h
  have hdpi : c.dpi = c'.dpi := congrArg (fun c => c.dpi) h
  cases req with
  | setRateLimit body => trivial
  | _ => simpa only [Request.Done, hips, hports, hdpi] using hdone

/-- The rule two path segments name holds the numbers they are read as. -/
theorem intOfString_of_portRule {port proto : String} {rule : ℕ × ℕ}
    (h : portRule port proto = .ok rule) :
    intOfString port = some (rule.1 : ℤ) ∧ intOfString proto = some (rule.2 : ℤ) := by
  unfold portRule at h
  split at h
  · rename_i portInt protoInt hport hproto
    split at h
    · cases h
    · rename_i hrange
      split at h
      · cases h
      · rename_i hsupported
        cases h
        rw [hport, hproto, Int.toNat_of_nonneg (not_not.mp hrange).1]
        rcases not_not.mp hsupported with rfl | rfl <;> exact ⟨rfl, rfl⟩
  · cases h

/-- A request about a rule is refused, or it is accepted and done. -/
theorem refused_or_done (compile : ReCompile) (c : FirewallApp) {req : Request}
    (h : req.IsRule) : Refused c ((serve compile req).run c) ∨
      req.Accepted compile c ∧ req.Done ((serve compile req).run c).state := by
  cases req with
  | addBlockedIp ip =>
      rcases run_addBlockedIp_cases c ip with ⟨-, h⟩ | ⟨-, body, h⟩
      · exact Or.inl h
      · refine Or.inr ⟨h.accepted, Request.done_of_core h.core ?_⟩
        exact Finset.mem_insert_self ip c.blockedIps
  | delBlockedIp ip =>
      rcases run_delBlockedIp_cases c ip with h | ⟨-, body, h⟩
      · exact Or.inl h
      · refine Or.inr ⟨h.accepted, Request.done_of_core h.core ?_⟩
        exact Finset.notMem_erase ip c.blockedIps
  | addBlockedPort port proto =>
      rcases run_addBlockedPort_cases c port proto with
        ⟨-, h⟩ | ⟨rule, m, hrule, -, body, h⟩
      · exact Or.inl h
      · obtain ⟨hport, hproto⟩ := intOfString_of_portRule hrule
        refine Or.inr ⟨h.accepted, Request.done_of_core h.core ?_⟩
        exact ⟨rule.1, rule.2, hport, hproto, Finset.mem_insert_self rule c.blockedPorts⟩
  | delBlockedPort port proto =>
      rcases run_delBlockedPort_cases c port proto with h | ⟨rule, hrule, body, h⟩
      · exact Or.inl h
      · obtain ⟨hport, hproto⟩ := intOfString_of_portRule hrule
        refine Or.inr ⟨h.accepted, Request.done_of_core h.core ?_⟩
        exact ⟨rule.1, rule.2, hport, hproto, Finset.notMem_erase rule c.blockedPorts⟩
  | setRateLimit body => exact h.elim
  | addDpiPattern body =>
      rcases run_addDpiPattern_cases compile c body with h |
        ⟨json, name, rawPattern, description, dpi, pattern, rfl, hname, hraw, hadd, h⟩
      · exact Or.inl h
      · refine Or.inr ⟨h.accepted, Request.done_of_core h.core ?_⟩
        -- the stored pattern has the text of the request, under its trimmed name
        have hadded := DPIEngine.added_of_addPattern hadd
        obtain ⟨s, rfl, hs⟩ := hadded.name_eq
        have hmem : pattern ∈ dpi.patterns := by
          rw [hadded.patterns_eq]
          exact List.mem_append_right _ (List.mem_singleton_self pattern)
        exact ⟨json, s, pattern.rawPattern, rfl, hname,
          hraw.trans (congrArg Except.ok hadded.body_eq), pattern, hmem, hs, rfl⟩
  | delDpiPattern patternName =>
      rcases run_delDpiPattern_cases c patternName with h | ⟨dpi, hremove, h⟩
      · exact Or.inl h
      · refine Or.inr ⟨h.accepted, Request.done_of_core h.core fun p hp => ?_⟩
        -- what is left are the patterns of other names
        obtain ⟨-, hpatterns⟩ := DPIEngine.removed_of_removePattern hremove
        have hmem : p ∈ dpi.patterns := hp
        rw [hpatterns] at hmem
        exact of_decide_eq_true (List.mem_filter.mp hmem).2

/-- A request about a rule that is not answered with status 200 leaves the controller and every
switch as they were; one that is has its rule in force, or no longer in force. -/
theorem World.ruleRequest (compile : ReCompile) (w : World) {req : Request} (h : req.IsRule) :
    (¬ req.Accepted compile w.ctl → w.step compile (.rest req) = w) ∧
      (req.Accepted compile w.ctl → req.Done (w.step compile (.rest req)).ctl) := by
  rcases refused_or_done compile w.ctl h with hrefused | ⟨hok, hdone⟩
  · refine ⟨fun _ => ?_, fun hok => absurd hok hrefused.not_accepted⟩
    obtain ⟨val, hrun, -⟩ := hrefused
    have hstate : (w.ctl.handle compile (.rest req)).1 = w.ctl := by
      rw [FirewallApp.handle, hrun]
    have htables : ∀ d, (w.expired (.rest req) d).applyAll (w.sends compile (.rest req) d) =
        w.tables d := by
      intro d
      rw [World.sends, FirewallApp.handle, hrun]
      rfl
    obtain ⟨ctl, tables⟩ := w
    exact congrArg₂ World.mk hstate (funext htables)
  · exact ⟨fun hnot => absurd hok hnot, fun _ => hdone⟩

/-- An address with an octet out of range is refused, one that can be read is blocked. -/
theorem World.ruleRequest_addBlockedIp :
    (World.init builtinEngine).step builtinCompile (.rest (.addBlockedIp "10.0.0.256")) =
        .init builtinEngine ∧
      "10.0.0.1" ∈ ((World.init builtinEngine).step builtinCompile
        (.rest (.addBlockedIp "10.0.0.1"))).ctl.blockedIps :=
  have hrule : ∀ ip, (Request.addBlockedIp ip).IsRule := fun _ => trivial
  ⟨(World.ruleRequest builtinCompile (.init builtinEngine) (hrule "10.0.0.256")).1 fun hok =>
      absurd (ipv4AddressOk_of_accepted hok) (by decide +kernel),
    (World.ruleRequest builtinCompile (.init builtinEngine) (hrule "10.0.0.1")).2
      (accepted_addBlockedIp builtinCompile _ (by decide +kernel))⟩

end SdnFirewall
