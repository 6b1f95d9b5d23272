import Mathlib.Algebra.Order.Ring.Rat
import Mathlib.Tactic.Linarith
import SdnFirewall.Common.Runs
import SdnFirewall.Common.Window
import SdnFirewall.Controller.Checks
import SdnFirewall.Packet.Mininet

/-!
# The rate limiter is a sliding window

One call of `_check_ip_rate_limit` after the other, for packets of any sources at times that do not
run backwards. The deque of a source forgets what is old, yet it never misses a packet that still
counts.
-/

namespace SdnFirewall

open Common OpenFlow Python

/-- A packet at the rate limiter. -/
structure Arrival where
  datapath : Datapath
  now : ℚ
  src : String

/-- The times of the arrivals do not run backwards. -/
def InOrder (as : List Arrival) : Prop := as.Pairwise fun a b => a.now ≤ b.now

/-- The times of the packets of one source. -/
def timesOf (src : String) (as : List Arrival) : List ℚ :=
  (as.filter fun a => a.src = src).map Arrival.now

/-- The times of a source in two parts, one after the other. -/
theorem timesOf_append (src : String) (as as' : List Arrival) :
    timesOf src (as ++ as') = timesOf src as ++ timesOf src as' := by
  simp [timesOf]

/-- An arrival has a time for its own source only. -/
theorem timesOf_singleton (src : String) (a : Arrival) :
    timesOf src [a] = if a.src = src then [a.now] else [] := by
  by_cases h : a.src = src <;> simp [timesOf, h]

/-- Arrivals in order have times in order. -/
theorem InOrder.timesOf {as : List Arrival} (h : InOrder as) (src : String) :
    (timesOf src as).Pairwise (· ≤ ·) :=
  List.pairwise_map.mpr (h.sublist List.filter_sublist)

/-- The last arrival is the latest. -/
theorem inOrder_concat {as : List Arrival} {a : Arrival} :
    InOrder (as ++ [a]) ↔ InOrder as ∧ ∀ b ∈ as, b.now ≤ a.now := by
  simp [InOrder, List.pairwise_append]

namespace FirewallApp

/-- The rate limiter lets the packet pass. -/
def LetsPass (c : FirewallApp) (a : Arrival) : Prop :=
  ((checkIpRateLimit a.datapath a.now a.src).run c).val = .ok .allowed

/-- The state after the packet. -/
def afterArrival (c : FirewallApp) (a : Arrival) : FirewallApp :=
  ((checkIpRateLimit a.datapath a.now a.src).run c).state

/-- An arrival passes if its window has room. -/
theorem letsPass_iff {c : FirewallApp} {a : Arrival} :
    c.LetsPass a ↔ ((c.window a.now a.src).length : ℤ) < c.rateLimit := by
  rw [LetsPass, run_checkIpRateLimit, ← not_le]
  by_cases h : c.rateLimit ≤ ((c.window a.now a.src).length : ℤ) <;> simp [h]

instance (c : FirewallApp) (a : Arrival) : Decidable (c.LetsPass a) :=
  decidable_of_iff _ letsPass_iff.symm

/-- The packets of a sequence that pass. -/
def passed (c : FirewallApp) (as : List Arrival) : List Arrival :=
  outputs afterArrival (fun c a => if c.LetsPass a then [a] else []) c as

/-- The state after a sequence of packets. -/
def afterArrivals (c : FirewallApp) (as : List Arrival) : FirewallApp :=
  runFrom afterArrival c as

/-- The deque of a source. -/
def trackerOf (c : FirewallApp) (src : String) : List ℚ := (c.rateTracker.get? src).getD []

/-- The tracker keeps the window, and the arrival if that passes. -/
theorem afterArrival_eq (c : FirewallApp) (a : Arrival) :
    c.afterArrival a = c.setTracker a.src
      (c.window a.now a.src ++ if c.LetsPass a then [a.now] else []) := by
  rw [afterArrival, run_checkIpRateLimit]
  by_cases h : c.LetsPass a
  · rw [if_pos h, if_neg (not_le.mpr (letsPass_iff.mp h))]
  · rw [if_neg h, if_pos (not_lt.mp fun hlt => h (letsPass_iff.mpr hlt)), List.append_nil]

@[simp] theorem passed_nil (c : FirewallApp) : c.passed [] = [] := rfl

/-- The last arrival passes or not in the state the others lead to. -/
theorem passed_concat (c : FirewallApp) (as : List Arrival) (a : Arrival) :
    c.passed (as ++ [a]) = c.passed as ++ if (c.afterArrivals as).LetsPass a then [a] else [] :=
  outputs_concat ..

/-- The last arrival comes in the state the others lead to. -/
theorem afterArrivals_concat (c : FirewallApp) (as : List Arrival) (a : Arrival) :
    c.afterArrivals (as ++ [a]) = (c.afterArrivals as).afterArrival a := runFrom_concat ..

/-! ## What the deques hold -/

/-- The packets that pass come in the order of their arrival. -/
theorem passed_sublist (c : FirewallApp) (as : List Arrival) : (c.passed as).Sublist as := by
  induction as using List.reverseRecOn with
  | nil => exact List.nil_sublist _
  | append_singleton as a ih =>
      rw [passed_concat]
      refine ih.append ?_
      split
      · exact List.Sublist.refl _
      · exact List.nil_sublist _

/-- The deques after a sequence of packets: of the packets of each source that passed, those that
can still count are there. -/
structure Tracks (c : FirewallApp) (as : List Arrival) : Prop where
  limit : (c.afterArrivals as).rateLimit = c.rateLimit
  window : (c.afterArrivals as).rateWindow = c.rateWindow
  sublist : ∀ src, ((c.afterArrivals as).trackerOf src).Sublist (timesOf src (c.passed as))
  recent : ∀ src t, (∀ a ∈ as, a.now ≤ t) →
    recent c.rateWindow t ((c.afterArrivals as).trackerOf src) =
      recent c.rateWindow t (timesOf src (c.passed as))

/-- At a later time the window of a source is the declarative one. -/
theorem Tracks.window_eq {c : FirewallApp} {as : List Arrival} (h : c.Tracks as)
    (has : InOrder as) {t : ℚ} (ht : ∀ a ∈ as, a.now ≤ t) (src : String) :
    (c.afterArrivals as).window t src =
      Common.recent c.rateWindow t (timesOf src (c.passed as)) := by
  have hsorted : ((c.afterArrivals as).trackerOf src).Pairwise (· ≤ ·) :=
    (InOrder.timesOf (has.sublist (passed_sublist c as)) src).sublist (h.sublist src)
  rw [← h.recent src t ht, ← dropWhile_eq_recent _ _ hsorted, ← h.window]
  rfl

/-- An arrival changes the tracker of its own source only. -/
theorem trackerOf_afterArrival (c : FirewallApp) (a : Arrival) (src : String) :
    (c.afterArrival a).trackerOf src =
      if src = a.src then c.window a.now a.src ++ if c.LetsPass a then [a.now] else []
      else c.trackerOf src := by
  rw [afterArrival_eq, trackerOf, setTracker_rateTracker, Dict.get?_set]
  split <;> rfl

/-- An empty tracker stands for no arrivals. -/
theorem tracks_nil {c : FirewallApp} (hc : c.rateTracker = .empty) : c.Tracks [] where
  limit := rfl
  window := rfl
  sublist := fun src => by
    show (c.trackerOf src).Sublist _
    rw [trackerOf, hc]
    exact List.nil_sublist _
  recent := fun src t _ => by
    show Common.recent _ _ (c.trackerOf src) = _
    rw [trackerOf, hc]
    rfl

/-- One more arrival in order is tracked as well. -/
theorem tracks_concat {c : FirewallApp} {as : List Arrival} {a : Arrival} (h : c.Tracks as)
    (has : InOrder (as ++ [a])) : c.Tracks (as ++ [a]) := by
  obtain ⟨has, ha⟩ := inOrder_concat.mp has
  have hwindow := h.window_eq has ha a.src
  refine ⟨?_, ?_, fun src => ?_, fun src t ht => ?_⟩
  · rw [afterArrivals_concat, afterArrival_eq]
    exact h.limit
  · rw [afterArrivals_concat, afterArrival_eq]
    exact h.window
  · rw [afterArrivals_concat, trackerOf_afterArrival, passed_concat, timesOf_append]
    -- only the source of the arrival has a changed deque
    by_cases hsrc : src = a.src
    · subst hsrc
      rw [if_pos rfl, hwindow]
      refine List.filter_sublist.append ?_
      split
      · simp [timesOf]
      · exact List.nil_sublist _
    · rw [if_neg hsrc]
      exact (h.sublist src).trans (List.sublist_append_left ..)
  · rw [afterArrivals_concat, trackerOf_afterArrival, passed_concat, timesOf_append,
      recent_append]
    have hold := h.recent src t fun b hb => ht b (List.mem_append_left _ hb)
    by_cases hsrc : src = a.src
    · subst hsrc
      have hat : a.now ≤ t := ht a (List.mem_append_right _ List.mem_cons_self)
      rw [if_pos rfl, hwindow, recent_append, recent_recent _ hat]
      split <;> simp [timesOf]
    · have hnone : timesOf src (if (c.afterArrivals as).LetsPass a then [a] else []) = [] := by
        split <;> simp [timesOf, Ne.symm hsrc]
      rw [if_neg hsrc, hnone, hold]
      simp [Common.recent]

/-- After packets in order, the deques hold what can still count. -/
theorem tracks_of_inOrder {c : FirewallApp} (hc : c.rateTracker = .empty) {as : List Arrival}
    (has : InOrder as) : c.Tracks as := by
  induction as using List.reverseRecOn with
  | nil => exact tracks_nil hc
  | append_singleton as a ih => exact tracks_concat (ih (inOrder_concat.mp has).1) has

/-! ## What the limiter decides -/

section Decisions

variable {c : FirewallApp} {as : List Arrival} {a : Arrival}

/-- A packet passes when fewer than the limit of its source's passed packets are recent. -/
theorem letsPass_iff_recent (hc : c.rateTracker = .empty) (has : InOrder (as ++ [a])) :
    (c.afterArrivals as).LetsPass a ↔
      ((recent c.rateWindow a.now (timesOf a.src (c.passed as))).length : ℤ) < c.rateLimit := by
  obtain ⟨has, ha⟩ := inOrder_concat.mp has
  have h := tracks_of_inOrder hc has
  rw [letsPass_iff, h.window_eq has ha, h.limit]

/-- Two histories in which the same packets of the source passed lead to the same decision. -/
theorem letsPass_congr {as' : List Arrival} (hc : c.rateTracker = .empty)
    (has : InOrder (as ++ [a])) (has' : InOrder (as' ++ [a]))
    (h : timesOf a.src (c.passed as) = timesOf a.src (c.passed as')) :
    (c.afterArrivals as).LetsPass a ↔ (c.afterArrivals as').LetsPass a := by
  rw [letsPass_iff_recent hc has, letsPass_iff_recent hc has', h]

/-- Without the rejected packets the same ones pass. -/
theorem passed_passed (hc : c.rateTracker = .empty) (has : InOrder as) :
    c.passed (c.passed as) = c.passed as := by
  induction as using List.reverseRecOn with
  | nil => rfl
  | append_singleton as a ih =>
      have hold := ih (inOrder_concat.mp has).1
      rw [passed_concat]
      by_cases ha : (c.afterArrivals as).LetsPass a
      · have hsub : InOrder (c.passed as ++ [a]) :=
          has.sublist ((passed_sublist c as).append (List.Sublist.refl _))
        have hiff := letsPass_congr hc has hsub (by rw [hold])
        rw [if_pos ha, passed_concat, if_pos (hiff.mp ha), hold]
      · rw [if_neg ha, List.append_nil, hold]

/-- Without the packets of other sources the same ones of the source pass. -/
theorem timesOf_passed_filter (hc : c.rateTracker = .empty) (has : InOrder as) (src : String) :
    timesOf src (c.passed (as.filter fun b => b.src = src)) = timesOf src (c.passed as) := by
  induction as using List.reverseRecOn with
  | nil => rfl
  | append_singleton as a ih =>
      have hold := ih (inOrder_concat.mp has).1
      rw [List.filter_append, passed_concat, timesOf_append]
      by_cases hsrc : a.src = src
      · subst hsrc
        have hsub : InOrder (as.filter (fun b => b.src = a.src) ++ [a]) :=
          has.sublist (List.filter_sublist.append (List.Sublist.refl _))
        have hiff := letsPass_congr hc hsub has hold
        simp only [List.filter_cons, decide_true, if_true, List.filter_nil, passed_concat,
          timesOf_append, hold, hiff]
      · have hnone : timesOf src (if (c.afterArrivals as).LetsPass a then [a] else []) = [] := by
          split <;> simp [timesOf, hsrc]
        rw [hnone]
        simp [hsrc, hold]

/-- The passed packets of a source keep to the limit. -/
theorem limited_passed (hc : c.rateTracker = .empty) (has : InOrder as) (src : String) :
    Limited c.rateLimit c.rateWindow (timesOf src (c.passed as)) := by
  induction as using List.reverseRecOn with
  | nil => exact limited_nil _ _
  | append_singleton as a ih =>
      have hold := ih (inOrder_concat.mp has).1
      rw [passed_concat, timesOf_append]
      by_cases ha : (c.afterArrivals as).LetsPass a
      · rw [if_pos ha, timesOf_singleton]
        split
        · rename_i hsrc
          subst hsrc
          exact limited_concat.mpr ⟨hold, (letsPass_iff_recent hc has).mp ha⟩
        · rwa [List.append_nil]
      · rw [if_neg ha]
        simpa [timesOf] using hold

end Decisions

end FirewallApp

/-- The rate limiter is an exact sliding window for each source: a packet passes when fewer than
the limit of the source's passed packets are less than a window old. Rejected packets and other
sources make no difference, and no half-open interval of one window holds more than the limit. -/
theorem rateLimit_exact {c : FirewallApp} (hc : c.rateTracker = .empty) {as : List Arrival}
    (has : InOrder as) :
    (∀ before a after, as = before ++ a :: after →
      ((c.afterArrivals before).LetsPass a ↔
        ((recent c.rateWindow a.now (timesOf a.src (c.passed before))).length : ℤ) <
          c.rateLimit) ∧
      ((c.afterArrivals before).LetsPass a ↔
        (c.afterArrivals (c.passed before)).LetsPass a) ∧
      ((c.afterArrivals before).LetsPass a ↔
        (c.afterArrivals (before.filter fun b => b.src = a.src)).LetsPass a)) ∧
    ∀ src x,
      (((timesOf src (c.passed as)).filter fun t => x ≤ t ∧ t < x + c.rateWindow).length : ℤ) ≤
        max c.rateLimit 0 ∧
      (((timesOf src (c.passed as)).filter fun t => x < t ∧ t ≤ x + c.rateWindow).length : ℤ) ≤
        max c.rateLimit 0 := by
  refine ⟨?_, fun src x => ?_⟩
  · rintro before a after rfl
    have hbefore : InOrder (before ++ [a]) :=
      has.sublist ((List.Sublist.refl _).append (by simp))
    have hsub : ∀ {l : List Arrival}, l.Sublist before → InOrder (l ++ [a]) :=
      fun hl => hbefore.sublist (hl.append (List.Sublist.refl _))
    have hold := (inOrder_concat.mp hbefore).1
    refine ⟨FirewallApp.letsPass_iff_recent hc hbefore, ?_, ?_⟩
    · refine FirewallApp.letsPass_congr hc hbefore (hsub (FirewallApp.passed_sublist c _)) ?_
      rw [FirewallApp.passed_passed hc hold]
    · refine FirewallApp.letsPass_congr hc hbefore (hsub List.filter_sublist) ?_
      rw [FirewallApp.timesOf_passed_filter hc hold]
  -- what passes within any stretch of one window is recent at its last packet
  · have hlimited := FirewallApp.limited_passed hc has src
    constructor
    · exact hlimited.length_filter_le _ fun t u ht hu => by linarith [ht.2, hu.1]
    · exact hlimited.length_filter_le _ fun t u ht hu => by linarith [ht.2, hu.1]

/-- A controller that allows each source one packet a second. -/
def onePerSecond : FirewallApp := { FirewallApp.init builtinEngine with rateLimit := 1 }

/-- Three packets at intervals of half a second, and between them one of another source. -/
def halfSecondArrivals : List Arrival :=
  [⟨⟨1⟩, 0, "10.0.0.1"⟩, ⟨⟨1⟩, 1 / 2, "10.0.0.1"⟩, ⟨⟨2⟩, 3 / 4, "10.0.0.2"⟩, ⟨⟨2⟩, 1, "10.0.0.1"⟩]

/-- Of three arrivals half a second apart, the first and the last pass. -/
theorem rateLimit_exact_halfSecondArrivals :
    timesOf "10.0.0.1" (onePerSecond.passed halfSecondArrivals) = [0, 1] ∧
      (((timesOf "10.0.0.1" (onePerSecond.passed halfSecondArrivals)).filter
        fun t => 0 ≤ t ∧ t < 0 + onePerSecond.rateWindow).length : ℤ) ≤
          max onePerSecond.rateLimit 0 := by
  have horder : InOrder halfSecondArrivals := by
    simp only [InOrder, halfSecondArrivals, List.pairwise_cons]
    norm_num
  exact ⟨by decide +kernel, ((rateLimit_exact rfl horder).2 "10.0.0.1" 0).1⟩

end SdnFirewall
