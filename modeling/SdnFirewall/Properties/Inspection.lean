import SdnFirewall.Common.Scan
import SdnFirewall.Packet.Mininet
import SdnFirewall.System.Tables

/-!
# What inspection guarantees

Unblocked records are clean against the current signatures, a block lasts as long as the record that
carries it, and a record scans the two directions of its flow: where the stream was cut into packets
does not matter.
-/

namespace SdnFirewall

open Common OpenFlow Python

/-! ## Unblocked records are clean -/

/-- Unless the record is blocked, neither of its buffers matches a signature. -/
def TrustEntry.Clean (dpi : DPIEngine) (e : TrustEntry) : Prop :=
  e.blocked = false → ∀ side, (dpi.inspect (e.buf side)).isMatch = false

/-- A new record has seen nothing. -/
theorem clean_default (dpi : DPIEngine) : TrustEntry.Clean dpi {} := by
  intro _ side
  cases side <;> rfl

/-- The DPI stage leaves a clean record clean. -/
theorem TrustEntry.Clean.inspected {dpi : DPIEngine} {e : TrustEntry} (h : e.Clean dpi)
    (side : Side) (payload : Bytes) : (e.inspected dpi side payload).Clean dpi := by
  unfold TrustEntry.inspected
  split
  · exact h
  · rename_i hidle
    have hopen : e.blocked = false := by
      by_contra hb
      exact hidle (Or.inl (by simpa using hb))
    intro hmatch side'
    -- the side that was fed has just been tested, the other one is as before
    rw [TrustEntry.buf_fed]
    split
    · exact hmatch
    · exact h hopen side'

/-- Counting a packet does not touch the buffers. -/
theorem TrustEntry.Clean.recorded {dpi : DPIEngine} {e : TrustEntry} (h : e.Clean dpi) :
    e.recorded.Clean dpi := by
  intro hopen side
  rw [TrustEntry.buf_recorded]
  exact h (by rwa [TrustEntry.blocked_recorded] at hopen) side

/-- Every record is clean. -/
def FirewallApp.Clean (c : FirewallApp) : Prop :=
  ∀ k e, c.trustTable.get? k = some e → e.Clean c.dpi

/-- In a clean table a flow without a record is clean as well. -/
theorem FirewallApp.Clean.entryOf {c : FirewallApp} (h : c.Clean) (k : TrustKey) :
    (c.entryOf k).Clean c.dpi := by
  rw [FirewallApp.entryOf]
  cases hget : c.trustTable.get? k with
  | none => exact clean_default c.dpi
  | some e => exact h k e hget

/-- An event keeps the signatures, clears the trust table, or removes a signature. -/
theorem dpi_handle (compile : ReCompile) {c : FirewallApp} (hc : c.Keyed) (ev : Event) :
    (∀ p ∈ (c.handle compile ev).1.dpi.patterns, p ∈ c.dpi.patterns) ∨
      ∀ k, c.Drops compile k ev := by
  obtain ⟨c', ms, hact, hcore, -⟩ := acted_handle compile hc ev
  have hdpi : (c.handle compile ev).1.dpi = c'.dpi := congrArg (fun c => c.dpi) hcore
  rw [hdpi]
  cases hact with
  | handshake | unheard | ignored | expired => exact Or.inl fun _ hp => hp
  | rejected | allowed => exact Or.inl fun _ hp => by simpa using hp
  | served req val c' msgs hval h =>
      cases h with
      | refused | ipBlocked | ipUnblocked | portBlocked | portUnblocked | rateLimit =>
          exact Or.inl fun _ hp => hp
      | patternRemoved name dpi hremove => exact Or.inl (DPIEngine.removePattern_sub hremove)
      | patternAdded => exact Or.inr fun k => .pattern _ ⟨_, hval, rfl⟩

/-- Every event keeps the table clean. -/
theorem clean_handle {compile : ReCompile} {c : FirewallApp} (hc : c.Keyed) (h : c.Clean)
    (ev : Event) : (c.handle compile ev).1.Clean := by
  intro k e he
  rcases get?_handle compile hc ev k with ⟨-, hnone⟩ | ⟨hdrop, hsome⟩
  · rw [hnone] at he
    exact absurd he (by simp)
  · -- clean against the signatures the event was handled with
    have hins : ∀ e', c.inspected? ev k = some e' → e'.Clean c.dpi := by
      intro e' he'
      unfold FirewallApp.inspected? at he'
      split at he'
      · exact h k e' he'
      · split at he'
        · obtain rfl := Option.some.inj he'
          exact (h.entryOf _).inspected _ _
        · exact h k e' he'
    have hold : e.Clean c.dpi := by
      rw [hsome] at he
      split at he
      · obtain rfl := Option.some.inj he
        cases hget : c.inspected? ev k with
        | none => exact (clean_default c.dpi).recorded
        | some e' => exact (hins e' hget).recorded
      · exact hins e he
    -- signatures only get fewer, unless every record is dropped
    rcases dpi_handle compile hc ev with hsub | hall
    · exact fun hopen side => DPIEngine.inspect_mono hsub (hold hopen side)
    · exact absurd (hall k) hdrop

namespace World

/-- Inspecting either buffer of an unblocked record reports no match with the current signatures. -/
def UnblockedClean (w : World) : Prop :=
  ∀ kv ∈ w.ctl.trustTable.entries, kv.2.blocked = false →
    (w.ctl.dpi.inspect kv.2.bufA).isMatch = false ∧ (w.ctl.dpi.inspect kv.2.bufB).isMatch = false

/-- In every reachable state all unblocked records are clean. -/
theorem unblockedClean_run (compile : ReCompile) (dpi : DPIEngine) (evs : List Event) :
    (run compile dpi evs).UnblockedClean := by
  have hclean : (run compile dpi evs).Sound ∧ (run compile dpi evs).ctl.Clean := by
    refine runFrom_invariant (fun w : World => w.Sound ∧ w.ctl.Clean) ?_ ⟨sound_init dpi, ?_⟩ evs
    · exact fun w ev hw => ⟨sound_step hw.1 ev, clean_handle hw.1.keyed hw.2 ev⟩
    · exact fun k e he => absurd he (by simp [init, FirewallApp.init])
  rintro ⟨k, e⟩ hke hopen
  have h := hclean.2 k e (Dict.get?_eq_some_iff.mpr hke) hopen
  exact ⟨h .a, h .b⟩

end World

/-! ## A block lasts as long as its record -/

/-- A blocked record stays blocked through every event that does not delete it. -/
theorem blocked_handle_of_blocked {compile : ReCompile} {c : FirewallApp} (hc : c.Keyed)
    {ev : Event} {k : TrustKey} (hdrop : ¬ c.Drops compile k ev)
    (hb : (c.entryOf k).blocked = true) : ((c.handle compile ev).1.entryOf k).blocked = true := by
  rw [blocked_handle hc hdrop, blocked_inspected? hb]
  exact hb

namespace World

/-- From the packet that the DPI stage rejects on, every packet of its flow is refused, as long as
no request deletes the record. -/
theorem refused_of_dpiBlocked (compile : ReCompile) (dpi : DPIEngine) (evs later : List Event)
    {ev ev' : Event} {k : TrustKey}
    (hblock : (run compile dpi evs).ctl.verdictOf? ev = some .dpiBlocked)
    (hk : ev.flow? = some k)
    (hkeep : Along (step compile) (fun w e => ¬ w.ctl.Drops compile k e)
      (run compile dpi (evs ++ [ev])) later)
    (hk' : ev'.flow? = some k) :
    (run compile dpi (evs ++ ev :: later)).ctl.verdictOf? ev' ≠ some .allowed := by
  have hsound := sound_run compile dpi evs
  obtain ⟨hproto, hins⟩ := blocked_of_verdictOf? hblock hk
  have hfirst : run compile dpi (evs ++ [ev]) = (run compile dpi evs).step compile ev :=
    runFrom_concat ..
  have hrun : run compile dpi (evs ++ ev :: later) =
      runFrom (step compile) (run compile dpi (evs ++ [ev])) later := by
    rw [hfirst, run, runFrom_append]
    rfl
  -- the record is blocked right after the packet, and then at every later moment
  have hb : ((run compile dpi (evs ++ ev :: later)).ctl.entryOf k).blocked = true := by
    rw [hrun]
    refine (hkeep.invariant (fun w : World => w.Sound ∧ (w.ctl.entryOf k).blocked = true) ?_
      ⟨sound_run .., ?_⟩).2
    · exact fun w e hw he => ⟨sound_step hw.1 e, blocked_handle_of_blocked hw.1.keyed he hw.2⟩
    · rw [hfirst]
      exact (blocked_handle hsound.keyed (not_drops_of_flow? hk)).trans hins
  refine not_allowed_of_blocked hk' hproto ?_
  rw [blocked_inspected? hb]
  exact hb

/-- Host 1 sends host 2 a comment sequence, and then an empty segment; in between a signature is
added that has nothing to do with it. -/
def commentSegment : Event :=
  .packetIn 1 0 (packetInFrom 1 (tcpFrame 1 2 100 80 [0x2d, 0x2d]))

def emptySegment : Event :=
  .packetIn 1 0 (packetInFrom 1 (tcpFrame 1 2 100 80 []))

def unrelatedPattern : Event :=
  .rest (.addDpiPattern (.ok (.obj [("name", .str "UNRELATED"), ("pattern", .str "xyz")])))

/-- The added signature re-opens the blocked flow. -/
theorem not_dpiBlock_permanent :
    ¬ ∀ (evs later : List Event) (ev ev' : Event) (k : TrustKey),
      (run builtinCompile builtinEngine evs).ctl.verdictOf? ev = some .dpiBlocked →
      ev.flow? = some k → ev'.flow? = some k →
      (run builtinCompile builtinEngine (evs ++ ev :: later)).ctl.verdictOf? ev' ≠
        some .allowed := by
  intro h
  refine h [.handshake 1] [unrelatedPattern] commentSegment emptySegment
    ⟨6, ("10.0.0.1", 100), ("10.0.0.2", 80)⟩ ?_ ?_ ?_ ?_ <;> decide +kernel

/-- Rules on another address, and their removal, leave the block in place. -/
theorem refused_after_unrelated_rules :
    (run builtinCompile builtinEngine ([.handshake 1] ++ commentSegment ::
      [.rest (.addBlockedIp "10.0.0.9"), .rest (.delBlockedIp "10.0.0.9")])).ctl.verdictOf?
        emptySegment ≠ some .allowed := by
  refine refused_of_dpiBlocked builtinCompile builtinEngine [.handshake 1] _
    (k := ⟨6, ("10.0.0.1", 100), ("10.0.0.2", 80)⟩) (by decide +kernel) (by decide +kernel) ?_
    (by decide +kernel)
  refine ⟨?_, ?_, trivial⟩
  · intro hdrop
    cases hdrop with
    | ip _ _ hk => exact absurd hk (by decide)
  · rintro ⟨⟩

end World

end SdnFirewall
