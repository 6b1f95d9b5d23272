import SdnFirewall.Packet.Mininet
import SdnFirewall.System.Counters
import SdnFirewall.System.Tables

/-!
# The gauge of trusted flows

`trust_flows_installed` follows the records that are installed as long as none of them is deleted
on its own: the flush of an address or a port deletes records without taking them off the gauge,
while the full flush sets the gauge to zero with the table it clears.
-/

namespace SdnFirewall

open Common OpenFlow Python

namespace FirewallApp

/-- The gauge shows the number of installed records. -/
def Gauged (c : FirewallApp) : Prop :=
  c.stats.trustFlowsInstalled = c.trustTable.values.countP TrustEntry.installed

instance (c : FirewallApp) : Decidable c.Gauged := inferInstanceAs (Decidable (_ = _))

/-- The flows whose record is installed. -/
def installedKeys (c : FirewallApp) : Finset TrustKey :=
  c.trustTable.keysWith TrustEntry.installed

/-- The event is a request to block an address or a port that an installed record has. -/
inductive LosesTrust (c : FirewallApp) : Event → Prop
  | ip (ip : String) (k : TrustKey) (hok : ipv4AddressOk ip = true) (hk : k.hasIp ip = true)
      (hinst : (c.entryOf k).installed = true) : LosesTrust c (.rest (.addBlockedIp ip))
  | port (port proto : String) (rule : ℕ × ℕ) (k : TrustKey)
      (hrule : portRule port proto = .ok rule) (hk : k.hasPort rule.1 rule.2 = true)
      (hinst : (c.entryOf k).installed = true) : LosesTrust c (.rest (.addBlockedPort port proto))

end FirewallApp

/-- The installed keys are those of the records marked so. -/
theorem mem_installedKeys {c : FirewallApp} {k : TrustKey} :
    k ∈ c.installedKeys ↔ (c.entryOf k).installed = true := by
  rw [FirewallApp.installedKeys, Dict.mem_keysWith, FirewallApp.entryOf]
  cases c.trustTable.get? k <;> simp

/-- The gauge is right when it is the number of installed keys. -/
theorem gauged_iff {c : FirewallApp} :
    c.Gauged ↔ c.stats.trustFlowsInstalled = c.installedKeys.card := by
  rw [FirewallApp.Gauged, FirewallApp.installedKeys, Dict.card_keysWith]

/-! ## The records -/

/-- A record is installed once the packet that completes it is counted. -/
theorem TrustEntry.installed_recorded (e : TrustEntry) :
    e.recorded.installed = true ↔ e.installed = true ∨ e.Completes := by
  unfold TrustEntry.recorded TrustEntry.Completes
  cases h : e.installed <;> simp [h]

/-- The records that are installed after an event: the old ones it does not delete, and the one
whose trust it completes. -/
theorem mem_installedKeys_handle {compile : ReCompile} {c : FirewallApp} (hc : c.Keyed)
    {ev : Event} {k : TrustKey} :
    k ∈ (c.handle compile ev).1.installedKeys ↔
      ¬ c.Drops compile k ev ∧
        (k ∈ c.installedKeys ∨ c.Counts ev k ∧ (c.entryOf k).Completes) := by
  by_cases hdrop : c.Drops compile k ev
  · rcases get?_handle compile hc ev k with ⟨-, hnone⟩ | ⟨hnot, -⟩
    · rw [mem_installedKeys, entryOf_of_get?_none hnone]
      simp [hdrop]
    · exact absurd hdrop hnot
  obtain ⟨hinstalled, hcount⟩ := trust_inspected? c ev k
  rw [mem_installedKeys, mem_installedKeys, entryOf_handle hc hdrop]
  by_cases hcounts : c.Counts ev k
  · rw [if_pos hcounts, TrustEntry.installed_recorded, TrustEntry.Completes,
      TrustEntry.Completes, hinstalled, hcount]
    simp [hdrop, hcounts]
  · rw [if_neg hcounts, hinstalled]
    simp [hdrop, hcounts]

/-- An event completes trust if it counts for a record that its packet completes. -/
theorem completesFor_iff {c : FirewallApp} {ev : Event} :
    c.CompletesFor (c.counted? ev) ↔ ∃ k, c.Counts ev k ∧ (c.entryOf k).Completes := by
  rw [FirewallApp.CompletesFor]
  simp only [FirewallApp.Counts]
  cases c.counted? ev with
  | none => simp
  | some t => simp

/-- An event that does not set the gauge back deletes installed records exactly if it is a request
to block an address or a port of one. -/
theorem losesTrust_iff (compile : ReCompile) {c : FirewallApp} {ev : Event} :
    c.LosesTrust ev ↔
      ∃ k ∈ c.installedKeys, c.Drops compile k ev ∧ ¬ c.Resets compile ev := by
  have hnot : ∀ req, (∀ body, req ≠ .addDpiPattern body) → ¬ c.Resets compile (.rest req) := by
    rintro req hne ⟨_, ⟨⟩, body, heq, -⟩
    exact hne body heq
  constructor
  · intro h
    cases h with
    | ip ip k hok hk hinst =>
        exact ⟨k, mem_installedKeys.mpr hinst, .ip ip (accepted_addBlockedIp compile c hok) hk,
          hnot _ (by simp)⟩
    | port port proto rule k hrule hk hinst =>
        exact ⟨k, mem_installedKeys.mpr hinst,
          .port port proto (accepted_addBlockedPort compile c hrule) rule hrule hk,
          hnot _ (by simp)⟩
  · rintro ⟨k, hinst, hdrop, hreset⟩
    rw [mem_installedKeys] at hinst
    cases hdrop with
    | ip ip hok hk => exact .ip ip k (ipv4AddressOk_of_accepted hok) hk hinst
    | port port proto hok rule hrule hk => exact .port port proto rule k hrule hk hinst
    | pattern body hok => exact absurd ⟨_, rfl, body, rfl, hok⟩ hreset

/-! ## One event -/

/-- The gauge goes up with the packets that complete a trust. -/
theorem count_trustFlowsInstalled (c : FirewallApp) (ev : Event) :
    (c.counters ev).count .trustFlowsInstalled =
      if c.CompletesFor (c.counted? ev) then 1 else 0 := by
  rw [FirewallApp.counters]
  by_cases hv : c.verdictOf? ev = some .allowed
  · rw [hv]
    dsimp only
    split <;> rfl
  -- a packet that is not allowed completes no trust
  · have hnone : c.counted? ev = none := by
      cases ev with
      | packetIn d now msg => exact if_neg hv
      | handshake | rest | expire => rfl
    have hnot : ¬ c.CompletesFor none := Bool.false_ne_true
    rw [hnone, if_neg hnot]
    cases hresult : c.verdictOf? ev with
    | none => rfl
    | some result =>
        cases result with
        | allowed => exact absurd hresult hv
        | dpiBlocked =>
            dsimp only
            split <;> rfl
        | _ => rfl

/-- The gauge after an event. -/
theorem gauge_handle (compile : ReCompile) (c : FirewallApp) (ev : Event) :
    c.Resets compile ev ∧ (c.handle compile ev).1.stats.trustFlowsInstalled = 0 ∨
      ¬ c.Resets compile ev ∧ (c.handle compile ev).1.stats.trustFlowsInstalled =
        c.stats.trustFlowsInstalled + if c.CompletesFor (c.counted? ev) then 1 else 0 := by
  rcases stats_handle compile c ev with ⟨hreset, hstats⟩ | ⟨hnot, hcounted⟩
  · exact Or.inl ⟨hreset, by rw [hstats]⟩
  · refine Or.inr ⟨hnot, ?_⟩
    rw [← count_trustFlowsInstalled]
    exact hcounted .trustFlowsInstalled

/-- An event that deletes no installed record keeps the gauge exact. -/
theorem gauged_handle {compile : ReCompile} {c : FirewallApp} (hc : c.Keyed) (h : c.Gauged)
    {ev : Event} (hev : ¬ c.LosesTrust ev) : (c.handle compile ev).1.Gauged := by
  rw [gauged_iff] at h ⊢
  rcases gauge_handle compile c ev with ⟨hreset, hgauge⟩ | ⟨hnot, hgauge⟩
  · -- the full flush deletes every record
    obtain ⟨req, rfl, body, rfl, hok⟩ := hreset
    rw [hgauge, eq_comm, Finset.card_eq_zero, Finset.eq_empty_iff_forall_notMem]
    intro k hk
    exact ((mem_installedKeys_handle hc).mp hk).1 (.pattern body hok)
  have hkept : ∀ k ∈ c.installedKeys, ¬ c.Drops compile k ev :=
    fun k hk hdrop => hev ((losesTrust_iff compile).mpr ⟨k, hk, hdrop, hnot⟩)
  rw [hgauge, h]
  by_cases hcompletes : c.CompletesFor (c.counted? ev)
  · obtain ⟨k, hcounts, hk⟩ := completesFor_iff.mp hcompletes
    have hnew : k ∉ c.installedKeys := by
      rw [mem_installedKeys, hk.1]
      exact Bool.false_ne_true
    -- the one record that the packet completes is marked, and the gauge goes up by one
    have hinsert : (c.handle compile ev).1.installedKeys = insert k c.installedKeys := by
      ext k'
      rw [mem_installedKeys_handle hc, Finset.mem_insert]
      constructor
      · rintro ⟨-, hold | ⟨hcounts', -⟩⟩
        · exact Or.inr hold
        · exact Or.inl (Option.some.inj (hcounts'.symm.trans hcounts))
      · rintro (rfl | hold)
        · exact ⟨not_drops_of_flow? (flow?_of_counts hcounts).2, Or.inr ⟨hcounts, hk⟩⟩
        · exact ⟨hkept k' hold, Or.inl hold⟩
    rw [if_pos hcompletes, hinsert, Finset.card_insert_of_notMem hnew]
  · have hsame : (c.handle compile ev).1.installedKeys = c.installedKeys := by
      ext k
      rw [mem_installedKeys_handle hc]
      constructor
      · rintro ⟨-, hold | hnew⟩
        · exact hold
        · exact absurd (completesFor_iff.mpr ⟨k, hnew⟩) hcompletes
      · exact fun hold => ⟨hkept k hold, Or.inl hold⟩
    rw [if_neg hcompletes, hsame, Nat.add_zero]

/-- An event that deletes an installed record leaves the gauge too high. -/
theorem not_gauged_handle {compile : ReCompile} {c : FirewallApp} (hc : c.Keyed) (h : c.Gauged)
    {ev : Event} (hev : c.LosesTrust ev) : ¬ (c.handle compile ev).1.Gauged := by
  obtain ⟨k, hk, hdrop, hnot⟩ := (losesTrust_iff compile).mp hev
  rw [gauged_iff] at h ⊢
  rcases gauge_handle compile c ev with ⟨hreset, -⟩ | ⟨-, hgauge⟩
  · exact absurd hreset hnot
  have hlost : (c.handle compile ev).1.installedKeys ⊂ c.installedKeys := by
    rw [Finset.ssubset_iff_of_subset]
    · exact ⟨k, hk, fun hk' => ((mem_installedKeys_handle hc).mp hk').1 hdrop⟩
    · intro k' hk'
      rcases ((mem_installedKeys_handle hc).mp hk').2 with hold | ⟨hcounts, -⟩
      · exact hold
      · exact absurd hdrop (not_drops_of_flow? (flow?_of_counts hcounts).2)
  have hless := Finset.card_lt_card hlost
  omega

/-! ## Runs -/

/-- The gauge shows the number of installed records at every moment of a run exactly if no request
of the run blocks an address or a port that an installed record has. -/
theorem gauged_iff_along (compile : ReCompile) (dpi : DPIEngine) (evs : List Event) :
    (∀ n, (World.run compile dpi (evs.take n)).ctl.Gauged) ↔
      Along (World.step compile) (fun w ev => ¬ w.ctl.LosesTrust ev) (World.init dpi) evs := by
  have hinit : (World.init dpi).ctl.Keyed ∧ (World.init dpi).ctl.Gauged := ⟨keyed_init dpi, rfl⟩
  refine forall_take_iff_along (fun w : World => w.ctl.Keyed ∧ w.ctl.Gauged)
    (fun w => w.ctl.Gauged) ?_ (fun w h => h.2) ?_ hinit evs
  · exact fun w ev h hev => ⟨World.keyed_step h.1 ev, gauged_handle h.1 h.2 hev⟩
  · exact fun w ev h hev => not_gauged_handle h.1 h.2 (not_not.mp hev)

/-- Host 1 has a trusted flow when it is blocked. -/
def blockedTrustedHostRun : List Event :=
  [.handshake 1, .packetIn 1 0 (packetInFrom 2 (arpFrame 2 1 2))] ++
    List.replicate 5 (.packetIn 1 0 (packetInFrom 1 (udpFrame 1 2 100 53))) ++
    [.rest (.addBlockedIp "10.0.0.1")]

/-- The record is gone, and the gauge still shows it. -/
theorem not_gauged_blockedTrustedHostRun :
    ¬ (World.run builtinCompile builtinEngine blockedTrustedHostRun).ctl.Gauged := by
  decide +kernel

end SdnFirewall
