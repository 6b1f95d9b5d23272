import SdnFirewall.Packet.Mininet
import SdnFirewall.System.Counters

/-!
# The counters account for the packets

Every packet-in with a verdict is counted in `total`. It goes into one outcome counter as well,
unless the DPI stage finds its flow blocked already: then it is rejected before anything counts it.
-/

namespace SdnFirewall

open Common OpenFlow Python

/-- The packets that went into an outcome counter. -/
def Stats.outcomes (s : Stats) : ℕ :=
  s.allowed + s.blocked + s.rateLimited + s.arpSpoof + s.scanDetected + s.dpiBlocked

/-- Every packet of `total` went into an outcome counter. -/
def Stats.Balanced (s : Stats) : Prop := s.total = s.outcomes

instance (s : Stats) : Decidable s.Balanced := inferInstanceAs (Decidable (_ = _))

/-- A counter that stands for an outcome. -/
def StatKey.isOutcome : StatKey → Bool
  | .total | .trustFlowsInstalled => false
  | _ => true

/-- The outcomes went up by the listed counters that are outcomes. -/
theorem outcomes_of_countedUp {s s' : Stats} {keys : List StatKey} (h : s.CountedUp keys s') :
    s'.outcomes = s.outcomes + keys.countP StatKey.isOutcome := by
  have hsum : keys.countP StatKey.isOutcome = keys.count .allowed + keys.count .blocked +
      keys.count .rateLimited + keys.count .arpSpoof + keys.count .scanDetected +
      keys.count .dpiBlocked := by
    clear h
    induction keys with
    | nil => rfl
    | cons key keys ih =>
        rw [List.countP_cons, ih]
        cases key <;> simp [StatKey.isOutcome] <;> omega
  have h1 := h .allowed
  have h2 := h .blocked
  have h3 := h .rateLimited
  have h4 := h .arpSpoof
  have h5 := h .scanDetected
  have h6 := h .dpiBlocked
  simp only [Stats.get] at h1 h2 h3 h4 h5 h6
  rw [Stats.outcomes, Stats.outcomes, hsum]
  omega

/-! ## One event -/

/-- A packet that finds its flow blocked is rejected by the DPI stage. -/
theorem verdictOf?_of_findsBlocked {c : FirewallApp} {ev : Event} (h : c.FindsBlocked ev) :
    c.verdictOf? ev = some .dpiBlocked := by
  rw [FirewallApp.FindsBlocked, Option.any_eq_true] at h
  obtain ⟨call, hcall, hb⟩ := h
  cases ev with
  | handshake | rest | expire => cases hcall
  | packetIn d now msg =>
      obtain ⟨hd, ethPkt, heth, hcallOf⟩ := dpiCall?_eq_some.mp hcall
      obtain ⟨hval, -⟩ := (filtered_filterOf c ⟨d⟩ now msg ethPkt).of_dpiCall hcallOf
      have hafter : call.after c = c.entryOf call.key := TrustEntry.inspected_of_blocked hb ..
      rw [hafter, if_pos hb] at hval
      exact verdictOf?_eq_some.mpr ⟨hd, verdict?_eq_some.mpr ⟨ethPkt, heth, hval⟩⟩

/-- A packet is counted in `total` and in one outcome counter, but not in the latter when it finds
its flow blocked. -/
theorem count_counters (c : FirewallApp) (ev : Event) :
    (c.counters ev).count .total =
      (c.counters ev).countP StatKey.isOutcome + if c.FindsBlocked ev then 1 else 0 := by
  by_cases hfinds : c.FindsBlocked ev
  · rw [FirewallApp.counters, verdictOf?_of_findsBlocked hfinds]
    simp only [if_pos hfinds]
    rfl
  · rw [if_neg hfinds, FirewallApp.counters]
    cases c.verdictOf? ev with
    | none => rfl
    | some result =>
        cases result with
        | dpiBlocked => rw [if_neg hfinds]; rfl
        | allowed =>
            dsimp only
            split <;> rfl
        | _ => rfl

/-- What an event adds to `total` and to the outcomes. -/
theorem total_handle (compile : ReCompile) (c : FirewallApp) (ev : Event) :
    (c.handle compile ev).1.stats.total + c.stats.outcomes =
      (c.handle compile ev).1.stats.outcomes + c.stats.total +
        if c.FindsBlocked ev then 1 else 0 := by
  rcases stats_handle compile c ev with ⟨⟨req, rfl, -⟩, hstats⟩ | ⟨-, hcounted⟩
  · rw [hstats]
    have hnot : ¬ c.FindsBlocked (.rest req) := by simp [FirewallApp.FindsBlocked,
      FirewallApp.dpiCall?]
    rw [if_neg hnot, Nat.add_zero, Nat.add_comm]
    rfl
  · have htotal : (c.handle compile ev).1.stats.total =
        c.stats.total + (c.counters ev).count .total := hcounted .total
    rw [htotal, outcomes_of_countedUp hcounted, count_counters]
    omega

/-! ## Runs -/

/-- The outcome counters fall short of `total` by the packets that found their flow blocked. -/
theorem total_run (compile : ReCompile) (w : World) (evs : List Event) :
    (runFrom (World.step compile) w evs).ctl.stats.total + w.ctl.stats.outcomes =
      (runFrom (World.step compile) w evs).ctl.stats.outcomes + w.ctl.stats.total +
        tally (World.step compile) (fun w ev => w.ctl.FindsBlocked ev) w evs := by
  induction evs generalizing w with
  | nil =>
      simp only [runFrom_nil, tally]
      omega
  | cons ev evs ih =>
      have hstep := total_handle compile w.ctl ev
      have hrest := ih (w.step compile ev)
      simp only [runFrom_cons, tally]
      have hctl : (w.step compile ev).ctl = (w.ctl.handle compile ev).1 := rfl
      rw [hctl] at hrest
      omega

/-- The counters account for all packets of a run exactly if none of them reached the DPI stage with
its flow blocked already. -/
theorem balanced_iff (compile : ReCompile) (dpi : DPIEngine) (evs : List Event) :
    (World.run compile dpi evs).ctl.stats.Balanced ↔
      Along (World.step compile) (fun w ev => ¬ w.ctl.FindsBlocked ev) (World.init dpi) evs := by
  have h := total_run compile (World.init dpi) evs
  have houtcomes : (World.init dpi).ctl.stats.outcomes = 0 := rfl
  have htotal : (World.init dpi).ctl.stats.total = 0 := rfl
  have hnone : tally (World.step compile) (fun w ev => w.ctl.FindsBlocked ev) (World.init dpi) evs =
      0 ↔ Along (World.step compile) (fun w ev => ¬ w.ctl.FindsBlocked ev) (World.init dpi) evs :=
    tally_eq_zero_iff
  rw [houtcomes, htotal] at h
  rw [← hnone, Stats.Balanced, World.run]
  omega

/-- A segment that contains the comment sequence, and the next segment of the same flow. -/
def blockedFlowRun : List Event :=
  [.handshake 1, .packetIn 1 0 (packetInFrom 1 (tcpFrame 1 2 100 80 [0x2d, 0x2d])),
    .packetIn 1 0 (packetInFrom 1 (tcpFrame 1 2 100 80 [0x2d]))]

/-- Of the two packets one is in an outcome counter. -/
theorem not_balanced_blockedFlowRun :
    ¬ (World.run builtinCompile builtinEngine blockedFlowRun).ctl.stats.Balanced := by
  decide +kernel

end SdnFirewall
