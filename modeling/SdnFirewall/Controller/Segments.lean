import SdnFirewall.Common.Cells
import SdnFirewall.Controller.Verdict

/-!
# The DPI stage as a machine

The segments that reach `_check_dpi`, one after the other. Each goes through the record of its flow
and no other: up to the order of the keys, the stage is a machine of independent cells.
-/

namespace SdnFirewall

open Common OpenFlow Python

namespace FirewallApp

/-- The state a call of `_check_dpi` leaves. -/
def checked (c : FirewallApp) (call : DpiCall) : FirewallApp :=
  ((checkDpi call.ipPkt call.tcpPkt call.payload).run c).state

/-- The verdict of a call of `_check_dpi`. -/
def dpiVerdict (c : FirewallApp) (call : DpiCall) : Except Exc CheckResult :=
  ((checkDpi call.ipPkt call.tcpPkt call.payload).run c).val

/-- A list of segments, each with its verdict. -/
def dpiVerdicts (c : FirewallApp) (calls : List DpiCall) :
    List (DpiCall × Except Exc CheckResult) :=
  outputs checked (fun c call => [(call, c.dpiVerdict call)]) c calls

end FirewallApp

/-- The segment is the one that gets its flow blocked. -/
def DpiCall.Blocks (call : DpiCall) (c : FirewallApp) : Prop :=
  (c.entryOf call.key).blocked = false ∧ (call.after c).blocked = true

instance (call : DpiCall) (c : FirewallApp) : Decidable (call.Blocks c) :=
  inferInstanceAs (Decidable (_ ∧ _))

section Checked

variable (c : FirewallApp) (call : DpiCall)

/-- A segment is rejected exactly if its record is blocked afterwards. -/
theorem dpiVerdict_eq :
    c.dpiVerdict call = .ok (if (call.after c).blocked then .dpiBlocked else .allowed) := by
  obtain ⟨state, out, hrun, -⟩ := checkDpi_spec call c
  rw [FirewallApp.dpiVerdict, hrun]

/-- Inspection changes nothing but the record, the log and the counters. -/
theorem core_checked : (c.checked call).core = (c.setTrust call.key (call.after c)).core := by
  obtain ⟨state, out, hrun, hcore, -⟩ := checkDpi_spec call c
  rw [FirewallApp.checked, hrun]
  exact hcore

@[simp] theorem trustTable_checked :
    (c.checked call).trustTable = c.trustTable.set call.key (call.after c) :=
  congrArg (fun c => c.trustTable) (core_checked c call)

@[simp] theorem dpi_checked : (c.checked call).dpi = c.dpi :=
  congrArg (fun c => c.dpi) (core_checked c call)

/-- What a call leaves: the record is written, and the segment that gets its flow blocked is counted
and logged. -/
theorem checked_eq :
    c.checked call =
      if call.Blocks c then
        ((c.setTrust call.key (call.after c)).bump .dpiBlocked).logged
          (dpiLogEntry call.ipPkt (c.dpi.inspect ((call.after c).buf call.side)))
      else c.setTrust call.key (call.after c) := by
  rw [FirewallApp.checked, run_checkDpi]
  show Outcome.state (if (call.after c).blocked = true then
    if (c.entryOf call.key).blocked = true then _ else _ else _) = _
  by_cases hb : (call.after c).blocked = true
  · rw [if_pos hb]
    by_cases hold : (c.entryOf call.key).blocked = true
    · have hnot : ¬ call.Blocks c := by simp [DpiCall.Blocks, hold]
      rw [if_pos hold, if_neg hnot]
      rfl
    · have hblocks : call.Blocks c := ⟨by simpa using hold, hb⟩
      rw [if_neg hold, if_pos hblocks]
      rfl
  · have hnot : ¬ call.Blocks c := fun h => hb h.2
    rw [if_neg hb, if_neg hnot]
    rfl

/-- Only the segment that gets its flow blocked is counted by the stage itself. -/
theorem stats_checked :
    (c.checked call).stats = if call.Blocks c then c.stats.incr .dpiBlocked else c.stats := by
  rw [checked_eq]
  split <;> rfl

end Checked

/-! ## The cells -/

/-- The records of the flows as cells: a segment goes through the record of its flow, and it is
answered with the blocked flag it finds and the one it leaves. -/
def dpiCells (dpi : DPIEngine) :
    CellMachine TrustKey (Option TrustEntry) DpiCall (Bool × Bool) where
  key := DpiCall.key
  next := fun e call => some ((e.getD {}).inspected dpi call.side call.payload)
  answer := fun e call =>
    ((e.getD {}).blocked, ((e.getD {}).inspected dpi call.side call.payload).blocked)

/-- The verdict an answer stands for. -/
def verdictOfFlags (flags : Bool × Bool) : Except Exc CheckResult :=
  .ok (if flags.2 then .dpiBlocked else .allowed)

/-- The answer of the segment that gets its flow blocked. -/
def isNewBlock (flags : Bool × Bool) : Bool := !flags.1 && flags.2

namespace FirewallApp

/-- The record of each flow. -/
def records (c : FirewallApp) (k : TrustKey) : Option TrustEntry := c.trustTable.get? k

end FirewallApp

/-- A call of `_check_dpi` is a step of the cells. -/
theorem records_checked (c : FirewallApp) (call : DpiCall) :
    (c.checked call).records = (dpiCells c.dpi).step c.records call := by
  funext k
  rw [FirewallApp.records, trustTable_checked, Dict.get?_set, CellMachine.step,
    Function.update_apply]
  rfl

/-- `n` more segments that got their flow blocked. -/
def Stats.addDpiBlocked (s : Stats) (n : ℕ) : Stats := { s with dpiBlocked := s.dpiBlocked + n }

/-- A list of segments takes the records through the cells. -/
theorem run_checked (c : FirewallApp) (calls : List DpiCall) :
    (runFrom FirewallApp.checked c calls).dpi = c.dpi ∧
      (runFrom FirewallApp.checked c calls).records =
        runFrom (dpiCells c.dpi).step c.records calls := by
  induction calls generalizing c with
  | nil => exact ⟨rfl, rfl⟩
  | cons call calls ih =>
      have h := ih (c.checked call)
      rw [dpi_checked, records_checked] at h
      exact h

/-- The verdicts are the answers of the cells. -/
theorem dpiVerdicts_eq (c : FirewallApp) (calls : List DpiCall) :
    c.dpiVerdicts calls =
      ((dpiCells c.dpi).answers c.records calls).map fun a => (a.1, verdictOfFlags a.2) := by
  induction calls generalizing c with
  | nil => rfl
  | cons call calls ih =>
      have h := ih (c.checked call)
      rw [dpi_checked, records_checked] at h
      rw [FirewallApp.dpiVerdicts, outputs_cons, ← FirewallApp.dpiVerdicts, h, dpiVerdict_eq]
      rfl

/-- The counter goes up with every segment that gets its flow blocked. -/
theorem stats_run_checked (c : FirewallApp) (calls : List DpiCall) :
    (runFrom FirewallApp.checked c calls).stats =
      c.stats.addDpiBlocked
        (((dpiCells c.dpi).answers c.records calls).countP fun a => isNewBlock a.2) := by
  induction calls generalizing c with
  | nil => rfl
  | cons call calls ih =>
      have h := ih (c.checked call)
      rw [dpi_checked, records_checked, stats_checked] at h
      have hanswers : (dpiCells c.dpi).answers c.records (call :: calls) =
          (call, (c.entryOf call.key).blocked, (call.after c).blocked) ::
            (dpiCells c.dpi).answers ((dpiCells c.dpi).step c.records call) calls := rfl
      rw [runFrom_cons, h, hanswers, List.countP_cons]
      by_cases hb : call.Blocks c
      · simp only [if_pos hb, isNewBlock, hb.1, hb.2, Stats.addDpiBlocked, Stats.incr]
        simp only [Bool.not_false, Bool.and_true, if_true, Nat.add_assoc, Nat.add_comm 1]
      · have hold : isNewBlock ((c.entryOf call.key).blocked, (call.after c).blocked) = false := by
          rw [DpiCall.Blocks, not_and] at hb
          cases h : (c.entryOf call.key).blocked with
          | false => simpa [isNewBlock] using hb h
          | true => rfl
        simp [if_neg hb, hold]

end SdnFirewall
