import SdnFirewall.System.Tables

/-!
# The flushes hit their target and nothing else

What the messages of the flush of an address and of the full flush leave of a flow table, and what
the flushes leave of the trust table, for any switches, tables and records.
-/

namespace SdnFirewall

open Common OpenFlow Python

/-- The numbers of the switches the controller sends to. -/
def FirewallApp.switches (c : FirewallApp) : List ℕ := c.datapaths.values.map Datapath.id

/-- A table after the messages of a call to its switch. -/
def applied (tables : ℕ → FlowTable) (out : List Effect) (d : ℕ) : FlowTable :=
  (tables d).applyAll (sentTo d out)

/-- Messages sent to every switch reach the connected ones, at least once. Applied twice they must
come to the same as applied once, since two connections could have one number. -/
theorem applyAll_switches {msgs : List OFPMsg}
    (hidem : ∀ t : FlowTable, (t.applyAll msgs).applyAll msgs = t.applyAll msgs)
    (dps : List Datapath) (t : FlowTable) (d : ℕ) :
    t.applyAll (sentTo d (dps.flatMap fun dp => msgs.map (Effect.sendMsg dp.id))) =
      if d ∈ dps.map Datapath.id then t.applyAll msgs else t := by
  induction dps generalizing t with
  | nil => simp
  | cons dp dps ih =>
      rw [List.flatMap_cons, sentTo_append, sentTo_map, FlowTable.applyAll_append, ih]
      by_cases hd : dp.id = d
      · have hmem : d ∈ (dp :: dps).map Datapath.id := by simp [hd]
        rw [if_pos hd, if_pos hmem]
        split
        · exact hidem t
        · rfl
      · have hmem : d ∈ (dp :: dps).map Datapath.id ↔ d ∈ dps.map Datapath.id := by
          simp [Ne.symm hd]
        rw [if_neg hd, FlowTable.applyAll_nil]
        simp only [hmem]

/-! ## The flush of an address -/

/-- The entry is about IPv4 frames from the address or to it. -/
def NamesIp (ip : String) (e : FlowEntry) : Prop :=
  e.ofMatch.ethType = some ETH_TYPE_IP ∧ (e.ofMatch.ipv4Src = some ip ∨ e.ofMatch.ipv4Dst = some ip)

instance (ip : String) (e : FlowEntry) : Decidable (NamesIp ip e) :=
  inferInstanceAs (Decidable (_ ∧ _))

/-- The messages each switch is sent to flush an address. -/
def flushIpMsgs (ip : String) : List OFPMsg :=
  [.flowMod (deleteMod (ipv4SrcMatch ip)), .flowMod (deleteMod (ipv4DstMatch ip))]

/-- The flush of an address deletes the entries that name it and no others. -/
theorem applyAll_flushIpMsgs (t : FlowTable) (ip : String) :
    t.applyAll (flushIpMsgs ip) = t.filter fun e => ¬ NamesIp ip e := by
  show (t.delete (ipv4SrcMatch ip) OFPP_ANY OFPG_ANY).delete (ipv4DstMatch ip) OFPP_ANY OFPG_ANY = _
  rw [FlowTable.delete, FlowTable.delete, List.filter_filter]
  refine List.filter_congr fun e _ => ?_
  simp only [ipv4SrcMatch_covers, ipv4DstMatch_covers, true_or, and_true, NamesIp]
  by_cases htype : e.ofMatch.ethType = some ETH_TYPE_IP <;> simp [htype, Bool.and_comm]

/-- A second flush finds nothing to delete. -/
theorem applyAll_flushIpMsgs_twice (ip : String) (t : FlowTable) :
    (t.applyAll (flushIpMsgs ip)).applyAll (flushIpMsgs ip) = t.applyAll (flushIpMsgs ip) := by
  rw [applyAll_flushIpMsgs, applyAll_flushIpMsgs, List.filter_filter]
  exact List.filter_congr fun e _ => Bool.and_self _

/-! ## The full flush -/

/-- The messages each switch is sent in the full flush. -/
def flushAllMsgs : List OFPMsg := [.flowMod (deleteMod ipv4Match), .flowMod catchAllMod]

/-- The flush of all flows deletes what is about IPv4 and puts the catch-all back. -/
theorem applyAll_flushAllMsgs (t : FlowTable) :
    t.applyAll flushAllMsgs =
      (t.filter fun e => e.ofMatch.ethType ≠ some ETH_TYPE_IP) ++ [catchAllEntry] := by
  show (t.delete ipv4Match OFPP_ANY OFPG_ANY).add catchAllEntry = _
  have hdelete : t.delete ipv4Match OFPP_ANY OFPG_ANY =
      t.filter fun e => e.ofMatch.ethType ≠ some ETH_TYPE_IP := by
    rw [FlowTable.delete]
    exact List.filter_congr fun e _ => by simp
  rw [hdelete, FlowTable.add, List.filter_filter]
  refine congrArg (· ++ _) (List.filter_congr fun e _ => ?_)
  -- what is not about IPv4 frames is not overwritten by the catch-all
  by_cases htype : e.ofMatch.ethType = some ETH_TYPE_IP
  · simp [htype]
  · have hne : e.ofMatch ≠ ipv4Match := fun h => htype (by rw [h]; rfl)
    simp [htype, hne]

/-- A second flush changes nothing. -/
theorem applyAll_flushAllMsgs_twice (t : FlowTable) :
    (t.applyAll flushAllMsgs).applyAll flushAllMsgs = t.applyAll flushAllMsgs := by
  rw [applyAll_flushAllMsgs, applyAll_flushAllMsgs, List.filter_append, List.filter_filter]
  have hcatchAll : [catchAllEntry].filter
      (fun e => e.ofMatch.ethType ≠ some ETH_TYPE_IP) = [] := by simp [ipv4Match]
  rw [hcatchAll, List.append_nil]
  exact congrArg (· ++ _) (List.filter_congr fun e _ => Bool.and_self _)

/-! ## Both flushes -/

/-- The flush of an address removes from each connected switch the IPv4 entries from the address or
to it and from the trust table the keys with the address, and the full flush removes all IPv4
entries, puts the catch-all back and empties the trust table; nothing else changes. -/
theorem flush_exact (c : FirewallApp) (tables : ℕ → FlowTable) (ip : String) :
    (∀ d, applied tables ((flushFlowsForIp ip).run c).out d =
      if d ∈ c.switches then (tables d).filter fun e => ¬ NamesIp ip e else tables d) ∧
    (((flushFlowsForIp ip).run c).state.trustTable.entries =
      c.trustTable.entries.filter fun kv => ¬ (kv.1.a.1 = ip ∨ kv.1.b.1 = ip)) ∧
    (∀ d, applied tables (flushAllTrustFlows.run c).out d =
      if d ∈ c.switches then
        ((tables d).filter fun e => e.ofMatch.ethType ≠ some ETH_TYPE_IP) ++ [catchAllEntry]
      else tables d) ∧
    (flushAllTrustFlows.run c).state.trustTable.entries = [] := by
  refine ⟨fun d => ?_, ?_, fun d => ?_, ?_⟩
  · rw [run_flushFlowsForIp, applied, sentTo_append, sentTo_logOut, List.nil_append]
    -- were a switch listed twice, the second round of messages would change nothing
    have h := applyAll_switches (applyAll_flushIpMsgs_twice ip) c.datapaths.values (tables d) d
    rw [applyAll_flushIpMsgs] at h
    exact h
  · rw [run_flushFlowsForIp]
    refine List.filter_congr fun kv _ => ?_
    simp [TrustKey.hasIp]
  · rw [run_flushAllTrustFlows, applied, sentTo_append, sentTo_logOut, List.append_nil]
    have h := applyAll_switches applyAll_flushAllMsgs_twice c.datapaths.values (tables d) d
    rw [applyAll_flushAllMsgs] at h
    exact h
  · rw [run_flushAllTrustFlows]
    show c.trustTable.entries.filter (fun _ => false) = []
    exact List.filter_false ..

end SdnFirewall
