import SdnFirewall.System.Connections
import SdnFirewall.System.Tables

/-!
# The handshake comes first

In whatever order the receive loops, the event loop and the requests take their turns, the firewall
handles a packet-in only after the handshake of the switch it is from: the assumption under which
`FirewallApp.handle` dispatches. And what it handles of a connection is what the messages of that
connection alone determine, in their order.
-/

namespace SdnFirewall

open Common OpenFlow

/-! ## Versions -/

/-- No version is above the highest. -/
theorem le_maxVersion {versions : Finset ℕ} {v : ℕ} (h : v ∈ versions) : v ≤ maxVersion versions :=
  Finset.le_sup (f := id) h

/-- `max` of a set is its one element that no other exceeds. -/
theorem maxVersion_eq_of_mem {versions : Finset ℕ} {v : ℕ} (h : v ∈ versions)
    (hmax : ∀ u ∈ versions, u ≤ v) : maxVersion versions = v :=
  le_antisymm (Finset.sup_le hmax) (le_maxVersion h)

/-- The highest of some versions is one of them. -/
theorem maxVersion_mem {versions : Finset ℕ} (h : versions ≠ ∅) :
    maxVersion versions ∈ versions := by
  obtain ⟨v, hv, hsup⟩ := Finset.exists_mem_eq_sup versions (Finset.nonempty_iff_ne_empty.mpr h) id
  rw [maxVersion, hsup]
  exact hv

/-- A version is used if there is any, and it is the highest. -/
theorem useVersion_eq_ok_iff {usable : Finset ℕ} {v : ℕ} :
    useVersion usable = .ok v ↔ usable ≠ ∅ ∧ maxVersion usable = v := by
  unfold useVersion
  split <;> simp_all

/-- The negotiation without a bitmap. -/
theorem negotiate_nil_iff {supported : Finset ℕ} {version v : ℕ} :
    negotiate supported (maxVersion supported) version [] = .ok v ↔
      v ∈ supported ∧ v = min version (maxVersion supported) := by
  simp only [negotiate, ne_eq, not_true_eq_false, if_false]
  split
  · rename_i hlower
    refine iff_of_false (by simp) ?_
    rintro ⟨hv, hmin⟩
    -- the smaller of the two versions would be usable, and the largest usable one
    refine hlower.2 ((maxVersion_eq_of_mem ?_ fun u hu => ?_).trans hmin)
    · exact Finset.mem_filter.mpr ⟨hv, by omega⟩
    · obtain ⟨hu, hle⟩ := Finset.mem_filter.mp hu
      have hmax := le_maxVersion hu
      omega
  · rename_i hlower
    rw [useVersion_eq_ok_iff]
    rw [not_and, not_not] at hlower
    constructor
    · rintro ⟨hne, rfl⟩
      exact ⟨(Finset.mem_filter.mp (maxVersion_mem hne)).1, hlower hne⟩
    · rintro ⟨hv, rfl⟩
      have hmem : min version (maxVersion supported) ∈ supported.filter fun u => u ≤ version :=
        Finset.mem_filter.mpr ⟨hv, min_le_left _ _⟩
      have hne := Finset.ne_empty_of_mem hmem
      exact ⟨hne, hlower hne⟩

/-- The negotiation with a bitmap. -/
theorem negotiate_bitmap_iff {supported : Finset ℕ} {ofpVersion version v : ℕ}
    {elements : List (List ℕ)} (hne : elements ≠ []) :
    negotiate supported ofpVersion version elements = .ok v ↔
      v ∈ supported ∧ v ∈ elements.flatten ∧
        ∀ u ∈ elements.flatten, u ≤ maxVersion supported → u ≤ v := by
  simp only [negotiate, ne_eq, hne, not_false_eq_true, if_true]
  generalize husable : elements.flatten.toFinset ∩ supported = usable
  generalize hnegotiated :
    (elements.flatten.toFinset.filter fun u => u ≤ maxVersion supported) = negotiated
  have hmem {u : ℕ} : u ∈ usable ↔ u ∈ elements.flatten ∧ u ∈ supported := by
    rw [← husable, Finset.mem_inter, List.mem_toFinset]
  have hmem' {u : ℕ} : u ∈ negotiated ↔ u ∈ elements.flatten ∧ u ≤ maxVersion supported := by
    rw [← hnegotiated, Finset.mem_filter, List.mem_toFinset]
  have hsub {u : ℕ} (hu : u ∈ usable) : u ∈ negotiated :=
    hmem'.mpr ⟨(hmem.mp hu).1, le_maxVersion (hmem.mp hu).2⟩
  constructor
  · intro h
    split at h
    · cases h
    split at h
    · cases h
    rename_i hagree
    obtain ⟨hsome, rfl⟩ := useVersion_eq_ok_iff.mp h
    have hbest := maxVersion_mem hsome
    have hneg : negotiated ≠ ∅ := Finset.ne_empty_of_mem (hsub hbest)
    -- the code compares two maxima, and fails where they differ
    have hsame : maxVersion negotiated = maxVersion usable := by
      by_contra hdiff
      exact hagree ⟨hneg, hsome, hdiff⟩
    refine ⟨(hmem.mp hbest).2, (hmem.mp hbest).1, fun u hu hle => ?_⟩
    rw [← hsame]
    exact le_maxVersion (hmem'.mpr ⟨hu, hle⟩)
  · rintro ⟨hv, hoffered, hbest⟩
    have hvu : v ∈ usable := hmem.mpr ⟨hoffered, hv⟩
    have hsome := Finset.ne_empty_of_mem hvu
    have hmax : maxVersion usable = v :=
      maxVersion_eq_of_mem hvu fun u hu => hbest u (hmem.mp hu).1 (le_maxVersion (hmem.mp hu).2)
    have hmax' : maxVersion negotiated = v :=
      maxVersion_eq_of_mem (hsub hvu) fun u hu => hbest u (hmem'.mp hu).1 (hmem'.mp hu).2
    rw [if_neg fun h => hsome h.2, if_neg fun h => h.2.2 (hmax'.trans hmax.symm)]
    exact useVersion_eq_ok_iff.mpr ⟨hsome, hmax⟩

/-- The version settled on is one of ours. Against a bitmap it is the highest in it that is not
above all of ours, and without one the lower of the two hellos; where this is not a version we
support, the negotiation fails. -/
theorem negotiate_eq_ok_iff (supported : Finset ℕ) (version v : ℕ) (elements : List (List ℕ)) :
    negotiate supported (maxVersion supported) version elements = .ok v ↔
      v ∈ supported ∧
        if elements = [] then v = min version (maxVersion supported)
        else v ∈ elements.flatten ∧
          ∀ u ∈ elements.flatten, u ≤ maxVersion supported → u ≤ v := by
  split
  · rename_i hnil
    rw [hnil]
    exact negotiate_nil_iff
  · exact negotiate_bitmap_iff ‹_›

/-! ## Phases -/

namespace Connection

variable {conn : Connection} {m : SwitchMsg}

/-- A features reply in its phase gives the connection its number. -/
theorem id_dispatch_switchFeatures {d : ℕ} (h : conn.state = .config) :
    (conn.dispatch (.switchFeatures d)).id = some d := by
  simp [dispatch, handlers, h, switchFeaturesHandler]

/-- What the firewall observes, it observes in the right phase. -/
theorem observed?_eq_some {ev : AppEvent} :
    conn.observed? m = some ev ↔ m.event? = some ev ∧ ev.dispatcher = conn.state := by
  simp [observed?, Option.filter_eq_some_iff]

end Connection

/-! ## Announcements -/

namespace Sessions

/-- If the connection has a number, the controller knows the switch or will, from these events. -/
def Announced (s : Sessions) (i : ℕ) (events : List Queued) : Prop :=
  ∀ d, (s.conns i).id = some d →
    s.world.Connected d ∨ ∃ q ∈ events, q.conn = i ∧ q.ev = .switchFeatures

/-- What holds of the queue between two steps. -/
structure Ordered (s : Sessions) : Prop where
  keyed : s.world.ctl.Keyed
  phase : ∀ q ∈ s.events, q.ev.dispatcher = q.state
  named : ∀ q ∈ s.events, q.ev = .switchFeatures → (s.conns q.conn).id ≠ none
  reached : ∀ q ∈ s.events, ∀ msg, q.ev = .packetIn msg →
    (s.conns q.conn).state = .main ∨ (s.conns q.conn).state = .dead
  announced : ∀ i, s.Announced i s.events
  before : ∀ pre q post, s.events = pre ++ q :: post → ∀ msg, q.ev = .packetIn msg →
    s.Announced q.conn pre

/-- An announcement stays one while the number is the same and nothing is lost. -/
theorem Announced.mono {s s' : Sessions} {i : ℕ} {events events' : List Queued}
    (h : s.Announced i events) (hid : (s'.conns i).id = (s.conns i).id)
    (hconn : ∀ d, s.world.Connected d → s'.world.Connected d)
    (hsub : ∀ q ∈ events, q ∈ events') : s'.Announced i events' := by
  intro d hd
  rw [hid] at hd
  rcases h d hd with hknown | ⟨q, hmem, hq⟩
  · exact Or.inl (hconn d hknown)
  · exact Or.inr ⟨q, hsub q hmem, hq⟩

/-- A step that leaves the queue and the connections alone. -/
theorem Ordered.of_world {s : Sessions} (h : s.Ordered) {w : World}
    (hkeyed : w.ctl.Keyed) (hconn : ∀ d, s.world.Connected d → w.Connected d) :
    ({ s with world := w }).Ordered where
  keyed := hkeyed
  phase := h.phase
  named := h.named
  reached := h.reached
  announced := fun i => (h.announced i).mono rfl hconn fun _ hq => hq
  before := fun pre q post heq msg hq => (h.before pre q post heq msg hq).mono rfl hconn
    fun _ hq' => hq'

/-- An event of the system leaves the queue in order. -/
theorem Ordered.step_world {s : Sessions} (h : s.Ordered) (compile : ReCompile) (ev : Event) :
    ({ s with world := s.world.step compile ev }).Ordered :=
  h.of_world (World.keyed_step h.keyed ev) fun _ hd => World.Connected.step h.keyed hd ev

/-! ### The event loop -/

/-- A packet-in at the head of the queue is from a connected switch. -/
theorem Ordered.connected_of_head {s : Sessions} (h : s.Ordered) {q : Queued}
    {events : List Queued} (hevents : s.events = q :: events) {msg : PacketIn}
    (hev : q.ev = .packetIn msg) {d : ℕ} (hid : (s.conns q.conn).id = some d) :
    s.world.Connected d := by
  rcases h.before [] q events hevents msg hev d hid with hknown | ⟨q', hmem, -⟩
  · exact hknown
  · exact absurd hmem List.not_mem_nil

/-- What the event loop does with an event is a step of the system, if anything. -/
theorem Ordered.handleQueued_eq {s : Sessions} (h : s.Ordered) (compile : ReCompile) {q : Queued}
    {events : List Queued} (hevents : s.events = q :: events) (now : ℚ) :
    s.handleQueued now q =
      (s.worldEvent? (.eventLoop now)).elim s.world (s.world.step compile) := by
  have hphase := h.phase q (hevents ▸ List.mem_cons_self)
  rw [handleQueued, if_pos hphase, worldEvent?, hevents, List.head?_cons, Option.bind_some]
  cases hid : (s.conns q.conn).id with
  | none =>
      -- the connection has no number yet: the handler ends at once
      have hquiet : s.world.ctl.handleEvent none now q.ev = (s.world.ctl, []) := by
        cases q.ev <;> rfl
      rw [hquiet]
      rfl
  | some d =>
      cases hev : q.ev with
      | switchFeatures => rfl
      | packetIn msg =>
          have hconn : d ∈ s.world.ctl.datapaths.keys := h.connected_of_head hevents hev hid
          have hhandle : s.world.ctl.handle compile (.packetIn d now msg) =
              s.world.ctl.handleEvent (some d) now (.packetIn msg) := if_pos hconn
          simp only [Option.map_some, Option.elim_some, AppEvent.toEvent, World.step, World.sends,
            hhandle]
          rfl

/-- The handshake of a connection makes its switch known. -/
theorem connected_handleQueued {s : Sessions} {q : Queued} (hphase : q.ev.dispatcher = q.state)
    (hev : q.ev = .switchFeatures) {d : ℕ} (hid : (s.conns q.conn).id = some d) (now : ℚ) :
    (s.handleQueued now q).Connected d := by
  rw [handleQueued, if_pos hphase, hev, hid, World.Connected]
  exact Dict.mem_keys_set.mpr (Or.inl rfl)

/-- So does a turn of the event loop, which makes the announcement at the head true. -/
theorem Ordered.eventLoop {s : Sessions} (h : s.Ordered) {q : Queued} {events : List Queued}
    (hevents : s.events = q :: events) (compile : ReCompile) (now : ℚ) :
    ({ s with world := s.handleQueued now q, events } : Sessions).Ordered := by
  have hold : ∀ q' ∈ events, q' ∈ s.events := fun q' hmem => hevents ▸ List.mem_cons_of_mem _ hmem
  have hworld : ({ s with world := s.handleQueued now q } : Sessions).Ordered := by
    rw [h.handleQueued_eq compile hevents now]
    cases s.worldEvent? (.eventLoop now) with
    | none => exact h
    | some ev => exact h.step_world compile ev
  -- an announcement that has been handled has come true
  have hdone (i : ℕ) (pre : List Queued)
      (hann : ({ s with world := s.handleQueued now q } : Sessions).Announced i (q :: pre)) :
      ({ s with world := s.handleQueued now q, events } : Sessions).Announced i pre := by
    intro d hid
    rcases hann d hid with hknown | ⟨q', hmem, rfl, hev⟩
    · exact Or.inl hknown
    · rcases List.mem_cons.mp hmem with rfl | hmem
      · have hphase := h.phase q' (hevents ▸ List.mem_cons_self)
        exact Or.inl (connected_handleQueued (s := s) hphase hev hid now)
      · exact Or.inr ⟨q', hmem, rfl, hev⟩
  refine ⟨hworld.keyed, fun q' hq => h.phase q' (hold q' hq), fun q' hq => h.named q' (hold q' hq),
    fun q' hq => h.reached q' (hold q' hq), fun i => ?_, fun pre q' post heq msg hev => ?_⟩
  · have hann := hworld.announced i
    rw [show ({ s with world := s.handleQueued now q } : Sessions).events = q :: events
      from hevents] at hann
    exact hdone i events hann
  · refine hdone q'.conn pre (hworld.before (q :: pre) q' post ?_ msg hev)
    rw [show ({ s with world := s.handleQueued now q } : Sessions).events = q :: events
      from hevents]
    exact congrArg (q :: ·) heq

/-! ### The receive loops -/

/-- What a message puts in the queue is its event, in the phase its connection is in. -/
theorem queued?_eq_some {s : Sessions} {i : ℕ} {m : SwitchMsg} {q : Queued}
    (h : s.queued? i m = some q) :
    q.conn = i ∧ q.state = (s.conns i).state ∧ m.event? = some q.ev ∧
      q.ev.dispatcher = q.state := by
  obtain ⟨ev, hev, rfl⟩ := Option.map_eq_some_iff.mp h
  obtain ⟨hm, hphase⟩ := Connection.observed?_eq_some.mp hev
  exact ⟨rfl, rfl, hm, hphase⟩

/-- A features reply that counts is announced to the firewall. -/
theorem queued?_switchFeatures {s : Sessions} {i d : ℕ} (h : (s.conns i).state = .config) :
    s.queued? i (.switchFeatures d) = some ⟨i, .switchFeatures, .config⟩ := by
  simp [queued?, Connection.observed?, SwitchMsg.event?, AppEvent.dispatcher, h]

/-- Only a features reply announces a switch. -/
theorem eq_switchFeatures_of_event? {m : SwitchMsg} (h : m.event? = some .switchFeatures) :
    ∃ d, m = .switchFeatures d := by
  cases m with
  | switchFeatures d => exact ⟨d, rfl⟩
  | _ => cases h

/-- An element of a list with an optional last one is that one or one of the others. -/
theorem split_of_append_option {α : Type} {l pre post : List α} {o : Option α} {a : α}
    (h : l ++ o.toList = pre ++ a :: post) :
    (pre = l ∧ o = some a) ∨ ∃ post', l = pre ++ a :: post' := by
  cases o with
  | none => exact Or.inr ⟨post, by simpa using h⟩
  | some b =>
      rcases List.eq_nil_or_concat post with rfl | ⟨post', c, rfl⟩
      · obtain ⟨rfl, hab⟩ := List.append_inj' h rfl
        exact Or.inl ⟨rfl, congrArg some (by simpa using hab)⟩
      · refine Or.inr ⟨post', ?_⟩
        have hcons : l ++ [b] = (pre ++ a :: post') ++ [c] := by simpa using h
        exact (List.append_inj' hcons rfl).1

section Accept

variable {s : Sessions} {i : ℕ} {m : SwitchMsg}

/-- The connection has dealt with the message. -/
theorem conns_accept_self : (s.accept i m).conns i = (s.conns i).dispatch m :=
  Function.update_self ..

/-- The others have not noticed. -/
theorem conns_accept_of_ne {j : ℕ} (hj : j ≠ i) : (s.accept i m).conns j = s.conns j :=
  Function.update_of_ne hj ..

/-- The queue has the event of the message, if it is one. -/
theorem mem_events_accept {q : Queued} :
    q ∈ (s.accept i m).events ↔ q ∈ s.events ∨ s.queued? i m = some q := by
  rw [accept, List.mem_append, Option.mem_toList]

/-- While a packet-in of a connection that goes on is in the queue, its phase is `MAIN`. -/
theorem Ordered.main_of_mem (h : s.Ordered) (hready : s.Ready i m) {q : Queued}
    (hq : q ∈ s.events) (hqi : q.conn = i) {msg : PacketIn} (hev : q.ev = .packetIn msg) :
    (s.conns i).state = .main := by
  subst hqi
  exact (h.reached q hq msg hev).resolve_right hready.1

/-- In `MAIN` the number of a connection is settled. -/
theorem dispatch_of_main (hphase : (s.conns i).state = .main) :
    ((s.accept i m).conns i).id = (s.conns i).id ∧
      (((s.accept i m).conns i).state = .main ∨ ((s.accept i m).conns i).state = .dead) := by
  rw [conns_accept_self]
  rcases Connection.moved_dispatch (s.conns i) m with hmoved | hclosed
  · cases hmoved with
    | stays hid hstate => exact ⟨hid, Or.inl (hstate.trans hphase)⟩
    | negotiated hphase' => exact absurd (hphase.symm.trans hphase') (by decide)
    | features hphase' => exact absurd (hphase.symm.trans hphase') (by decide)
    | ready hphase' => exact absurd (hphase.symm.trans hphase') (by decide)
  · rw [hclosed]
    exact ⟨rfl, Or.inr rfl⟩

/-- A number, once known, stays known. -/
theorem id_accept_ne_none {j : ℕ} (h : (s.conns j).id ≠ none) :
    ((s.accept i m).conns j).id ≠ none := by
  by_cases hj : j = i
  swap
  · rwa [conns_accept_of_ne hj]
  subst hj
  rw [conns_accept_self]
  rcases Connection.moved_dispatch (s.conns j) m with hmoved | hclosed
  · cases hmoved with
    | features hphase hid => simp [hid]
    | stays hid | negotiated _ hid | ready _ hid => rwa [hid]
  · rwa [hclosed]

/-- A number that a message gives is announced by the event of that message. -/
theorem Ordered.announced_accept (h : s.Ordered) (j : ℕ) :
    (s.accept i m).Announced j (s.accept i m).events := by
  have hsub : ∀ q ∈ s.events, q ∈ (s.accept i m).events := fun q hq =>
    mem_events_accept.mpr (Or.inl hq)
  have hsame (hid : ((s.accept i m).conns j).id = (s.conns j).id) :
      (s.accept i m).Announced j (s.accept i m).events :=
    (h.announced j).mono hid (fun _ hd => hd) hsub
  by_cases hj : j = i
  swap
  · exact hsame (congrArg Connection.id (conns_accept_of_ne hj))
  subst hj
  rcases Connection.moved_dispatch (s.conns j) m with hmoved | hclosed
  · rw [← conns_accept_self] at hmoved
    cases hmoved with
    | features hphase hid =>
        -- the features reply itself is what announces the switch
        intro d hd
        exact Or.inr ⟨_, mem_events_accept.mpr (Or.inr (queued?_switchFeatures hphase)), rfl, rfl⟩
    | stays hid | negotiated _ hid | ready _ hid => exact hsame hid
  · exact hsame (by rw [conns_accept_self, hclosed]; rfl)

/-- A receive loop that is ready leaves the queue in order. -/
theorem Ordered.accept (h : s.Ordered) (hready : s.Ready i m) : (s.accept i m).Ordered := by
  -- an event in the queue was there before, or is the one the message has raised
  refine ⟨h.keyed, fun q hq => ?_, fun q hq hev => ?_, fun q hq msg hev => ?_,
    h.announced_accept, fun pre q post heq msg hev => ?_⟩
  · rcases mem_events_accept.mp hq with hq | hq
    · exact h.phase q hq
    · exact (queued?_eq_some hq).2.2.2
  · rcases mem_events_accept.mp hq with hq | hq
    · exact id_accept_ne_none (h.named q hq hev)
    · obtain ⟨rfl, hstate, hm, hphase⟩ := queued?_eq_some hq
      rw [hev] at hm hphase
      obtain ⟨d, rfl⟩ := eq_switchFeatures_of_event? hm
      rw [conns_accept_self, Connection.id_dispatch_switchFeatures (hphase.trans hstate).symm]
      simp
  · rcases mem_events_accept.mp hq with hq | hq
    -- a connection with a packet-in in the queue is past its handshake
    · by_cases hqi : q.conn = i
      · rw [hqi]
        exact (dispatch_of_main (h.main_of_mem hready hq hqi hev)).2
      · rw [conns_accept_of_ne hqi]
        exact h.reached q hq msg hev
    · obtain ⟨rfl, hstate, hm, hphase⟩ := queued?_eq_some hq
      rw [hev] at hphase
      exact (dispatch_of_main (hphase.trans hstate).symm).2
  · rcases split_of_append_option heq with ⟨rfl, hnew⟩ | ⟨post', hold⟩
    · obtain ⟨rfl, hstate, -, hphase⟩ := queued?_eq_some hnew
      rw [hev] at hphase
      have hsame := (dispatch_of_main (m := m) (hphase.trans hstate).symm).1
      exact (h.announced q.conn).mono hsame (fun _ hd => hd) fun _ hq' => hq'
    · have hann := h.before pre q post' hold msg hev
      refine hann.mono ?_ (fun _ hd => hd) fun _ hq' => hq'
      by_cases hqi : q.conn = i
      · have hmem : q ∈ s.events := by
          rw [hold]
          exact List.mem_append_right _ List.mem_cons_self
        rw [hqi]
        exact (dispatch_of_main (h.main_of_mem hready hmem hqi hev)).1
      · exact congrArg Connection.id (conns_accept_of_ne hqi)

end Accept

/-- So does the end of a connection. -/
theorem Ordered.close {s : Sessions} (h : s.Ordered) (i : ℕ) :
    ({ s with conns := Function.update s.conns i (s.conns i).close } : Sessions).Ordered := by
  have hid (j : ℕ) : (Function.update s.conns i (s.conns i).close j).id = (s.conns j).id := by
    by_cases hj : j = i
    · rw [hj, Function.update_self]
      rfl
    · rw [Function.update_of_ne hj]
  refine ⟨h.keyed, h.phase, fun q hq hev => ?_, fun q hq msg hev => ?_, fun j => ?_,
    fun pre q post heq msg hev => ?_⟩
  · rw [hid]
    exact h.named q hq hev
  · by_cases hqi : q.conn = i
    · have hdead : (Function.update s.conns i (s.conns i).close i).state = .dead := by
        rw [Function.update_self]
        rfl
      rw [hqi]
      exact Or.inr hdead
    · have hreached := h.reached q hq msg hev
      rwa [← Function.update_of_ne hqi (s.conns i).close s.conns] at hreached
  · exact (h.announced j).mono (hid j) (fun _ hd => hd) fun _ hq => hq
  · exact (h.before pre q post heq msg hev).mono (hid q.conn) (fun _ hd => hd) fun _ hq => hq

/-- A step of the parties is at most one step of the system, and no packet-in comes too early. -/
theorem world_step (compile : ReCompile) {s : Sessions} (h : s.Ordered) (ev : SessionEvent) :
    (step compile s ev).world = (s.worldEvent? ev).elim s.world (s.world.step compile) ∧
      ∀ d now msg, s.worldEvent? ev = some (.packetIn d now msg) → s.world.Connected d := by
  cases ev with
  | received i m =>
      refine ⟨?_, fun d now msg heq => by cases heq⟩
      rw [step]
      split <;> rfl
  | closed i => exact ⟨rfl, fun d now msg heq => by cases heq⟩
  | rest req => exact ⟨rfl, fun d now msg heq => by cases heq⟩
  | expire d e => exact ⟨rfl, fun d now msg heq => by cases heq⟩
  -- only the event loop makes a step of the system, with the first event of its queue
  | eventLoop now =>
      cases hevents : s.events with
      | nil =>
          have hnone : s.worldEvent? (.eventLoop now) = none := by simp [worldEvent?, hevents]
          rw [hnone]
          refine ⟨by simp [step, hevents], fun d now msg heq => by cases heq⟩
      | cons q events =>
          refine ⟨?_, fun d now' msg heq => ?_⟩
          · rw [← h.handleQueued_eq compile hevents now]
            simp only [step, hevents]
          · simp only [worldEvent?, hevents, List.head?_cons, Option.bind_some,
              Option.map_eq_some_iff] at heq
            obtain ⟨d', hid, heq⟩ := heq
            cases hev : q.ev with
            | switchFeatures =>
                rw [hev] at heq
                cases heq
            | packetIn msg' =>
                rw [hev] at heq
                cases heq
                exact h.connected_of_head hevents hev hid

/-! ## Runs -/

end Sessions

end SdnFirewall
