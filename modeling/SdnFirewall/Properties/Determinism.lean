import SdnFirewall.System.Lookup

/-!
# One entry decides

OpenFlow leaves open which of several matching entries of equal priority a switch uses. In a
reachable table the question does not arise: each frame is decided by one entry.
-/

namespace OpenFlow

/-- Some frame meets the matches of both entries. -/
def FlowEntry.Overlaps (e e' : FlowEntry) : Prop :=
  ∃ k, e.ofMatch.Covers k ∧ e'.ofMatch.Covers k

namespace FlowTable

/-! ## Entries told apart by priority and match -/

/-- No two entries share priority and match. -/
def Distinct (t : FlowTable) : Prop :=
  ∀ e ∈ t, ∀ e' ∈ t, e.priority = e'.priority → e.ofMatch = e'.ofMatch → e = e'

/-- In an empty table there is nothing to tell apart. -/
theorem distinct_nil : Distinct [] := fun _ he => absurd he List.not_mem_nil

/-- What is left of a table is told apart as before. -/
theorem Distinct.subset {t t' : FlowTable} (h : t.Distinct) (hsub : ∀ e ∈ t', e ∈ t) :
    t'.Distinct :=
  fun e he e' he' => h e (hsub e he) e' (hsub e' he')

/-- A new entry overwrites the one it could not be told apart from. -/
theorem Distinct.add {t : FlowTable} (h : t.Distinct) (e : FlowEntry) : (t.add e).Distinct := by
  intro a ha b hb hprio hmatch
  rcases mem_add.mp ha with ⟨ha, hane⟩ | rfl
  · rcases mem_add.mp hb with ⟨hb, -⟩ | rfl
    · exact h a ha b hb hprio hmatch
    · exact absurd ⟨hprio, hmatch⟩ hane
  · rcases mem_add.mp hb with ⟨-, hbne⟩ | rfl
    · exact absurd ⟨hprio.symm, hmatch.symm⟩ hbne
    · rfl

/-- A message keeps the entries distinct. -/
theorem Distinct.apply {t : FlowTable} (h : t.Distinct) (m : OFPMsg) : (t.apply m).Distinct := by
  cases m with
  | packetOut out => exact h
  | flowMod mod =>
      cases hc : mod.command with
      | add =>
          rw [apply_add t hc]
          exact h.add mod.entry
      | delete =>
          rw [apply_delete t hc]
          exact h.subset fun e he => (mem_delete.mp he).1

/-- Messages keep the entries of a table told apart. -/
theorem Distinct.applyAll {t : FlowTable} (h : t.Distinct) (ms : List OFPMsg) :
    (t.applyAll ms).Distinct := by
  induction ms generalizing t with
  | nil => exact h
  | cons m ms ih => exact ih (h.apply m)

end FlowTable

end OpenFlow

namespace SdnFirewall

open Common OpenFlow Python

/-- Two fields that a frame matches name the same value. -/
theorem eq_of_fieldCovers {α : Type*} {a b : α} {k : Option α} (ha : FieldCovers (some a) k)
    (hb : FieldCovers (some b) k) : a = b := by
  rw [fieldCovers_some] at ha hb
  exact Option.some.inj (ha.symm.trans hb)

/-- Two trust entries that match one frame are for the same 5-tuple. -/
theorem trustMatch_eq_of_covers {proto proto' : ℕ} {src dst src' dst' : Endpoint} {k : FlowKey}
    (h : (trustMatch proto src dst).Covers k) (h' : (trustMatch proto' src' dst').Covers k) :
    trustMatch proto src dst = trustMatch proto' src' dst' := by
  obtain rfl : proto = proto' := by
    have hp : FieldCovers (trustMatch proto src dst).ipProto k.ipProto := h.2.2.2.2.1
    have hp' : FieldCovers (trustMatch proto' src' dst').ipProto k.ipProto := h'.2.2.2.2.1
    rw [trustMatch_ipProto] at hp hp'
    exact eq_of_fieldCovers hp hp'
  have hsrc : src.1 = src'.1 := by
    have hp : FieldCovers (trustMatch proto src dst).ipv4Src k.ipv4Src := h.2.2.2.2.2.1
    have hp' : FieldCovers (trustMatch proto src' dst').ipv4Src k.ipv4Src := h'.2.2.2.2.2.1
    rw [trustMatch_ipv4Src] at hp hp'
    exact eq_of_fieldCovers hp hp'
  have hdst : dst.1 = dst'.1 := by
    have hp : FieldCovers (trustMatch proto src dst).ipv4Dst k.ipv4Dst := h.2.2.2.2.2.2.1
    have hp' : FieldCovers (trustMatch proto src' dst').ipv4Dst k.ipv4Dst := h'.2.2.2.2.2.2.1
    rw [trustMatch_ipv4Dst] at hp hp'
    exact eq_of_fieldCovers hp hp'
  have hdstPort : dst.2 = dst'.2 :=
    Option.some.inj ((h.dstPort_eq (trustMatch_dstPort ..)).symm.trans
      (h'.dstPort_eq (trustMatch_dstPort ..)))
  have hsrcPort : src.2 = src'.2 :=
    Option.some.inj ((h.srcPort_eq (trustMatch_srcPort ..)).symm.trans
      (h'.srcPort_eq (trustMatch_srcPort ..)))
  rw [Prod.ext hsrc hsrcPort, Prod.ext hdst hdstPort]

/-- Two known entries of one priority that match one frame have the same match. -/
theorem Known.match_eq {e e' : FlowEntry} {k : FlowKey} (h : Known e) (h' : Known e')
    (hk : e.ofMatch.Covers k) (hk' : e'.ofMatch.Covers k) (hprio : e.priority = e'.priority) :
    e.ofMatch = e'.ofMatch := by
  cases h with
  | miss =>
      cases h' with
      | miss => rfl
      | catchAll | rateDrop | arpDrop | learned | trust => simp at hprio
  | catchAll =>
      cases h' with
      | catchAll => rfl
      | miss | rateDrop | arpDrop | learned | trust => simp at hprio
  -- the two drop entries share a priority, but one is for IPv4 and the other for ARP
  | rateDrop ip =>
      cases h' with
      | rateDrop ip' =>
          obtain rfl : ip = ip' := eq_of_fieldCovers hk.2.2.2.2.2.1 hk'.2.2.2.2.2.1
          rfl
      | arpDrop ip' =>
          have htype := (hk.ethType_eq rfl).symm.trans (hk'.ethType_eq rfl)
          exact absurd htype (by decide)
      | miss | catchAll | learned | trust => simp at hprio
  | arpDrop ip =>
      cases h' with
      | arpDrop ip' =>
          obtain rfl : ip = ip' := eq_of_fieldCovers hk.2.2.2.2.2.2.2.2.2.2.2
            hk'.2.2.2.2.2.2.2.2.2.2.2
          rfl
      | rateDrop ip' =>
          have htype := (hk.ethType_eq rfl).symm.trans (hk'.ethType_eq rfl)
          exact absurd htype (by decide)
      | miss | catchAll | learned | trust => simp at hprio
  | learned inPort ethPkt outPort =>
      obtain ⟨inPort', ethPkt', outPort', rfl⟩ := h'.learned_of_priority hprio.symm
      obtain ⟨hin, hdst, hsrc⟩ := learnedMatch_covers.mp hk
      obtain ⟨hin', hdst', hsrc'⟩ := learnedMatch_covers.mp hk'
      simp only [learnedEntry_ofMatch, learnedMatch, ← hin, ← hdst, ← hsrc, hin', hdst', hsrc']
  | trust proto src dst port hproto =>
      obtain ⟨proto', src', dst', port', -, rfl⟩ := h'.trust_of_priority hprio.symm
      exact trustMatch_eq_of_covers hk hk'

namespace World

/-- So they are in every reachable table. -/
theorem distinct_run (compile : ReCompile) (dpi : DPIEngine) (evs : List Event) (d : ℕ) :
    ((run compile dpi evs).tables d).Distinct := by
  refine runFrom_invariant (fun w : World => ∀ d, (w.tables d).Distinct) ?_
    (fun _ => FlowTable.distinct_nil) evs d
  intro w ev hw d
  exact ((hw d).subset fun e he => mem_of_mem_expired he).applyAll _

/-- No two entries of one priority have a frame in common. -/
theorem eq_of_overlaps (compile : ReCompile) (dpi : DPIEngine) (evs : List Event) (d : ℕ) :
    ∀ e ∈ (run compile dpi evs).tables d, ∀ e' ∈ (run compile dpi evs).tables d,
      e.priority = e'.priority → e.Overlaps e' → e = e' := by
  rintro e he e' he' hprio ⟨k, hk, hk'⟩
  have hw := sound_run compile dpi evs
  have hmatch := (hw.known d e he).match_eq (hw.known d e' he') hk hk' hprio
  exact distinct_run compile dpi evs d e he e' he' hprio hmatch

/-- Some entry decides a frame exactly if its switch is connected, and never do two: no two entries
of one priority overlap. -/
theorem decides_run (compile : ReCompile) (dpi : DPIEngine) (evs : List Event) (d : ℕ)
    (k : FlowKey) :
    ((∃ e, ((run compile dpi evs).tables d).Decides k e) ↔ (run compile dpi evs).Connected d) ∧
      (∀ e e', ((run compile dpi evs).tables d).Decides k e →
        ((run compile dpi evs).tables d).Decides k e' → e = e') ∧
      ∀ e ∈ (run compile dpi evs).tables d, ∀ e' ∈ (run compile dpi evs).tables d,
        e.priority = e'.priority → e.Overlaps e' → e = e' := by
  have hw := sound_run compile dpi evs
  refine ⟨⟨fun ⟨e, he⟩ => hw.connected_of_mem he.mem, fun hd => ?_⟩, fun e e' he he' => ?_,
    eq_of_overlaps compile dpi evs d⟩
  · exact FlowTable.exists_decides (hw.miss d hd) (OFPMatch.covers_any k)
  · have hprio : e.priority = e'.priority :=
      Nat.le_antisymm (he'.le he.mem he.covers) (he.le he'.mem he'.covers)
    exact eq_of_overlaps compile dpi evs d e he.mem e' he'.mem hprio ⟨k, he.covers, he'.covers⟩

end World

end SdnFirewall
