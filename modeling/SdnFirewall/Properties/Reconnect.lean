import SdnFirewall.Packet.Mininet
import SdnFirewall.System.Lookup

/-!
# Reconnecting switches

A switch keeps its table while it is away, across a restart of the controller too. The handshake
clears what the controller has learned of ARP, but it adds its two entries to whatever is left in
the table.
-/

namespace SdnFirewall

open Common OpenFlow Python

/-- The entry is for a flow that the controller trusts now, and no rule blocks its source address or
its destination port. -/
structure FirewallApp.Backs (c : FirewallApp) (e : FlowEntry) : Prop where
  installed : ∃ k r, flowKeyOfMatch? e.ofMatch = some k ∧ c.trustTable.get? k = some r ∧
    r.installed = true
  source : ∃ ip, e.ofMatch.ipv4Src = some ip ∧ ip ∉ c.blockedIps
  port : ∃ proto port, e.ofMatch.ipProto = some proto ∧ e.ofMatch.dstPort proto = some port ∧
    (port, proto) ∉ c.blockedPorts

/-- The entry decides some IPv4 frame and sends it out of a port. -/
def DirectsIpv4 (t : FlowTable) (e : FlowEntry) : Prop :=
  ∃ k : FlowKey, k.ethType = some ETH_TYPE_IP ∧ t.Decides k e ∧ e.outPorts k ≠ []

namespace World

/-- The controller backs every entry of the switch that forwards IPv4 frames. -/
def Backed (w : World) (d : ℕ) : Prop :=
  ∀ e, DirectsIpv4 (w.tables d) e → w.ctl.Backs e

/-- The table of a switch after its handshake. -/
theorem tables_handshake (compile : ReCompile) (w : World) (d : ℕ) :
    (w.step compile (.handshake d)).tables d = ((w.tables d).add missEntry).add catchAllEntry := by
  simp only [step, sends, expired, FirewallApp.handle, run_switchHandshakeHandler,
    sentTo_cons_sendMsg, sentTo_nil, if_true]
  rfl

/-- The handshake overwrites an old catch-all; what else forwards IPv4 frames above it is left, and
decides what it decided before. -/
theorem directsIpv4_handshake_iff (t : FlowTable) (e : FlowEntry) :
    DirectsIpv4 ((t.add missEntry).add catchAllEntry) e ↔
      DirectsIpv4 t e ∧ 300 ≤ e.priority ∧
        ¬ (e.priority = 300 ∧ e.ofMatch = ipv4Match) := by
  have hmem : ∀ e', 300 ≤ e'.priority → ¬ (e'.priority = 300 ∧ e'.ofMatch = ipv4Match) →
      (e' ∈ (t.add missEntry).add catchAllEntry ↔ e' ∈ t) := by
    intro e' hp hne
    have hcatch : e' ≠ catchAllEntry := by
      rintro rfl
      exact hne ⟨rfl, rfl⟩
    have hmiss : e' ≠ missEntry := by
      rintro rfl
      exact absurd hp (by simp)
    have hprio : e'.priority ≠ 0 := by omega
    simpa [FlowTable.mem_add, hcatch, hmiss, hprio] using fun (_ : e' ∈ t) => not_and.mp hne
  constructor
  · rintro ⟨k, hk, hdec, hout⟩
    have hle : 300 ≤ e.priority :=
      hdec.le (FlowTable.mem_add_self _ catchAllEntry) (ipv4Match_covers.mpr hk)
    have hne : ¬ (e.priority = 300 ∧ e.ofMatch = ipv4Match) := by
      rintro ⟨hp, hm⟩
      rcases FlowTable.mem_add.mp hdec.mem with ⟨-, h⟩ | rfl
      · exact h ⟨hp, hm⟩
      · exact hout (outPorts_catchAllEntry k)
    refine ⟨⟨k, hk, ⟨(hmem e hle hne).mp hdec.mem, hdec.covers, fun e' he' hek => ?_⟩, hout⟩, hle,
      hne⟩
    -- an entry above the catch-all has survived the handshake
    by_contra hlt
    have hlt' : 300 < e'.priority := lt_of_le_of_lt hle (not_le.mp hlt)
    exact hlt (hdec.le ((hmem e' hlt'.le fun h => absurd h.1 hlt'.ne').mpr he') hek)
  · rintro ⟨⟨k, hk, hdec, hout⟩, hle, hne⟩
    refine ⟨k, hk, ⟨(hmem e hle hne).mpr hdec.mem, hdec.covers, fun e' he' hek => ?_⟩, hout⟩
    rcases FlowTable.mem_add.mp he' with ⟨he', -⟩ | rfl
    · rcases FlowTable.mem_add.mp he' with ⟨he', -⟩ | rfl
      · exact hdec.le he' hek
      · exact Nat.zero_le _
    · exact hle

/-- After a handshake the controller backs all that forwards IPv4 frames exactly when it backed what
was left above the catch-all. -/
theorem backed_handshake_iff (compile : ReCompile) (w : World) (d : ℕ) :
    (w.step compile (.handshake d)).Backed d ↔
      ∀ e ∈ w.tables d, 300 ≤ e.priority → ¬ (e.priority = 300 ∧ e.ofMatch = ipv4Match) →
        DirectsIpv4 (w.tables d) e → w.ctl.Backs e := by
  have hbacks : ∀ e, (w.step compile (.handshake d)).ctl.Backs e ↔ w.ctl.Backs e :=
    fun e => ⟨fun h => ⟨h.installed, h.source, h.port⟩, fun h => ⟨h.installed, h.source, h.port⟩⟩
  simp only [Backed, tables_handshake, directsIpv4_handshake_iff, hbacks]
  constructor
  · exact fun h e _ hle hne hdirects => h e ⟨hdirects, hle, hne⟩
  · rintro h e ⟨hdirects, hle, hne⟩
    obtain ⟨k, hk, hdec, hout⟩ := hdirects
    exact h e hdec.mem hle hne ⟨k, hk, hdec, hout⟩

/-- Host 1 earns the trust of a flow to host 2. -/
def trustedFlowRun : List Event :=
  [.handshake 1, .packetIn 1 0 (packetInFrom 2 (arpFrame 2 1 2))] ++
    List.replicate 5 (Event.packetIn 1 0 (packetInFrom 1 (udpFrame 1 2 100 53)))

/-- A restarted controller, and the switches as its predecessor left them. -/
def restarted : World where
  ctl := .init builtinEngine
  tables := (run builtinCompile builtinEngine trustedFlowRun).tables

/-- The switch comes back with an entry that the new controller knows nothing of. -/
theorem not_backed_restarted : ¬ (restarted.step builtinCompile (.handshake 1)).Backed 1 := by
  intro h
  have hdirects : DirectsIpv4 ((restarted.step builtinCompile (.handshake 1)).tables 1)
      (trustFlowEntry 17 ("10.0.0.1", 100) ("10.0.0.2", 53) 3) := by
    refine ⟨trustMatch 17 ("10.0.0.1", 100) ("10.0.0.2", 53), ?_, ?_, ?_⟩
    · decide
    · decide +kernel
    · decide
  obtain ⟨k, r, -, hget, -⟩ := (h _ hdirects).installed
  have hnone : (restarted.step builtinCompile (.handshake 1)).ctl.trustTable.get? k = none := rfl
  rw [hnone] at hget
  exact absurd hget (by simp)

end World

end SdnFirewall
