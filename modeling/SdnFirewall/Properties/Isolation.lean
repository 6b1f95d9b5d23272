import SdnFirewall.Controller.Segments
import SdnFirewall.Packet.Mininet

/-!
# Flows do not see each other in the DPI stage

The stage treats a segment by the record of its flow alone. So the order in which segments of
different flows arrive makes no difference: to the records, to the counters, to any verdict.
-/

namespace SdnFirewall

open Common OpenFlow Python

/-- The segments of one flow. -/
def ofFlow (k : TrustKey) (calls : List DpiCall) : List DpiCall :=
  calls.filter fun call => call.key = k

/-- The verdicts on the segments of one flow. -/
def verdictsOfFlow (k : TrustKey) (verdicts : List (DpiCall × Except Exc CheckResult)) :
    List (DpiCall × Except Exc CheckResult) :=
  verdicts.filter fun v => v.1.key = k

/-- Two lists of segments come to the same thing: the same record for every flow, the same counters,
and the same verdict on every segment. -/
structure SameOutcome (c : FirewallApp) (calls calls' : List DpiCall) : Prop where
  trustTable : ∀ k, (runFrom FirewallApp.checked c calls).trustTable.get? k =
    (runFrom FirewallApp.checked c calls').trustTable.get? k
  stats : (runFrom FirewallApp.checked c calls).stats =
    (runFrom FirewallApp.checked c calls').stats
  verdicts : ∀ k, verdictsOfFlow k (c.dpiVerdicts calls) = verdictsOfFlow k (c.dpiVerdicts calls')

/-- The verdicts on the segments of a flow are the answers of its cell. -/
theorem verdictsOfFlow_eq (c : FirewallApp) (calls : List DpiCall) (k : TrustKey) :
    verdictsOfFlow k (c.dpiVerdicts calls) =
      ((dpiCells c.dpi).projectAnswers k ((dpiCells c.dpi).answers c.records calls)).map
        fun a => (a.1, verdictOfFlags a.2) := by
  rw [dpiVerdicts_eq, verdictsOfFlow, List.filter_map]
  rfl

/-- Interleavings of the same sequences, one for each flow, come to the same thing. -/
theorem sameOutcome_of_interleaved {c : FirewallApp} {calls calls' : List DpiCall}
    (h : (dpiCells c.dpi).Interleaved calls calls') : SameOutcome c calls calls' := by
  refine ⟨fun k => ?_, ?_, fun k => ?_⟩
  · show (runFrom FirewallApp.checked c calls).records k =
      (runFrom FirewallApp.checked c calls').records k
    rw [(run_checked c calls).2, (run_checked c calls').2, h.run_eq]
  · rw [stats_run_checked, stats_run_checked, (h.answers_perm c.records).countP_eq]
  · rw [verdictsOfFlow_eq, verdictsOfFlow_eq, h.projectAnswers_eq]

/-- The record of a flow depends on the segments of the flow and on the record it had. -/
theorem get?_run_checked {c c' : FirewallApp} (hdpi : c'.dpi = c.dpi) {k : TrustKey}
    (hk : c'.trustTable.get? k = c.trustTable.get? k) (calls : List DpiCall) :
    (runFrom FirewallApp.checked c calls).trustTable.get? k =
      (runFrom FirewallApp.checked c' (ofFlow k calls)).trustTable.get? k := by
  show (runFrom FirewallApp.checked c calls).records k =
    (runFrom FirewallApp.checked c' (ofFlow k calls)).records k
  have hself : (dpiCells c.dpi).project k (ofFlow k calls) = ofFlow k calls := by
    rw [ofFlow, CellMachine.project, List.filter_filter]
    exact List.filter_congr fun call _ => Bool.and_self _
  have hstart : c'.records k = c.records k := hk
  rw [(run_checked c calls).2, (run_checked c' _).2, hdpi, CellMachine.run_apply,
    CellMachine.run_apply, hself, hstart]
  rfl

/-- Isolation: interleavings of the same sequences come to the same thing, two segments of
different flows may come in either order, and the record of a flow depends on the segments of the
flow only. -/
theorem dpi_isolation (c : FirewallApp) :
    (∀ calls calls' : List DpiCall, (∀ k, ofFlow k calls = ofFlow k calls') →
      SameOutcome c calls calls') ∧
    (∀ call call' : DpiCall, call.key ≠ call'.key →
      SameOutcome c [call, call'] [call', call]) ∧
    ∀ (c' : FirewallApp) (k : TrustKey) (calls : List DpiCall), c'.dpi = c.dpi →
      c'.trustTable.get? k = c.trustTable.get? k →
      (runFrom FirewallApp.checked c calls).trustTable.get? k =
        (runFrom FirewallApp.checked c' (ofFlow k calls)).trustTable.get? k := by
  refine ⟨fun calls calls' h => sameOutcome_of_interleaved h, fun call call' h => ?_,
    fun c' k calls hdpi hk => get?_run_checked hdpi hk calls⟩
  exact sameOutcome_of_interleaved (CellMachine.interleaved_swap _ h)

/-- A segment from host 1 with a comment sequence, and one from host 3 with an ordinary payload. -/
def commentCall : DpiCall :=
  ⟨⟨5, 42, 6, "10.0.0.1", "10.0.0.2"⟩, ⟨100, 80, 1, 5, 16⟩, [0x2d, 0x2d]⟩

def plainCall : DpiCall :=
  ⟨⟨5, 42, 6, "10.0.0.3", "10.0.0.2"⟩, ⟨100, 80, 1, 5, 16⟩, [0x21]⟩

/-- A blocked flow and a plain one come out the same in both orders. -/
theorem dpi_isolation_commentCall :
    SameOutcome (.init builtinEngine) [commentCall, plainCall] [plainCall, commentCall] ∧
      ((FirewallApp.init builtinEngine).checked commentCall).stats.dpiBlocked = 1 :=
  ⟨(dpi_isolation (.init builtinEngine)).2.1 commentCall plainCall (by decide +kernel),
    by decide +kernel⟩

end SdnFirewall
