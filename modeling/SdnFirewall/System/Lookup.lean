import SdnFirewall.System.Tables

/-!
# Which entries decide which frames

In a sound table an IPv4 frame is decided above the learned entries, by the catch-all or by a trust
entry; any other frame is decided below, by a drop, a learned entry or the miss entry.
-/

namespace SdnFirewall

open Common OpenFlow Python

@[simp] theorem outPorts_missEntry (k : FlowKey) : missEntry.outPorts k = [] := by
  simp [FlowEntry.outPorts, toController]

@[simp] theorem outPorts_catchAllEntry (k : FlowKey) : catchAllEntry.outPorts k = [] := by
  simp [FlowEntry.outPorts, toController]

@[simp] theorem outPorts_rateDropEntry (ip : String) (k : FlowKey) :
    (rateDropEntry ip).outPorts k = [] := rfl

@[simp] theorem outPorts_arpDropEntry (ip : String) (k : FlowKey) :
    (arpDropEntry ip).outPorts k = [] := rfl

/-- A learned entry looks at the ingress port and the two stations only. -/
theorem learnedMatch_covers {inPort : ℕ} {ethPkt : Ethernet} {k : FlowKey} :
    (learnedMatch inPort ethPkt).Covers k ↔
      k.inPort = some inPort ∧ k.ethDst = some ethPkt.dst ∧ k.ethSrc = some ethPkt.src := by
  simp [OFPMatch.Covers, learnedMatch]

/-- A learned entry sends a frame it matches to its port, unless the frame came in there. -/
theorem outPorts_learnedEntry {inPort outPort : ℕ} {ethPkt : Ethernet} {k : FlowKey}
    (hk : (learnedEntry inPort ethPkt outPort).ofMatch.Covers k)
    (hctl : outPort ≠ OFPP_CONTROLLER) :
    (learnedEntry inPort ethPkt outPort).outPorts k =
      if outPort = inPort then [] else [outPort] := by
  have hin : k.inPort = some inPort := (learnedMatch_covers.mp hk).1
  by_cases h : outPort = inPort <;> simp [FlowEntry.outPorts, hin, hctl, h]

namespace Known

variable {e : FlowEntry} {k : FlowKey}

/-- The entries that can match a frame of another ethertype. -/
theorem of_covers_other (h : Known e) (hk : e.ofMatch.Covers k)
    (hip : k.ethType ≠ some ETH_TYPE_IP) :
    e = missEntry ∨ (∃ inPort ethPkt outPort, e = learnedEntry inPort ethPkt outPort) ∨
      ∃ ip, e = arpDropEntry ip ∧ k.ethType = some ETH_TYPE_ARP := by
  cases h with
  | miss => exact Or.inl rfl
  | catchAll => exact absurd (hk.ethType_eq rfl) hip
  | rateDrop ip => exact absurd (hk.ethType_eq rfl) hip
  | arpDrop ip => exact Or.inr (Or.inr ⟨ip, rfl, hk.ethType_eq rfl⟩)
  | learned inPort ethPkt outPort => exact Or.inr (Or.inl ⟨inPort, ethPkt, outPort, rfl⟩)
  | trust proto src dst port hproto =>
      refine absurd (hk.ethType_eq ?_) hip
      simp only [trustFlowEntry, trustMatch]
      split <;> rfl

/-- The entries of at least the priority of the catch-all. -/
theorem of_le_priority (h : Known e) (hp : 300 ≤ e.priority) :
    e = catchAllEntry ∨ ∃ proto src dst port, (proto = 6 ∨ proto = 17) ∧
      e = trustFlowEntry proto src dst port := by
  cases h with
  | catchAll => exact Or.inl rfl
  | trust proto src dst port hproto => exact Or.inr ⟨proto, src, dst, port, hproto, rfl⟩
  | miss | rateDrop | arpDrop | learned => simp at hp

end Known

namespace World

variable {w : World} {d : ℕ} {k : FlowKey} {e : FlowEntry}

/-- An IPv4 frame is decided by the catch-all or by a trust entry. -/
theorem Sound.decides_ipv4 (hw : w.Sound) (hk : k.ethType = some ETH_TYPE_IP)
    (h : (w.tables d).Decides k e) :
    e = catchAllEntry ∨ ∃ proto src dst port, (proto = 6 ∨ proto = 17) ∧
      e = trustFlowEntry proto src dst port := by
  have hd := hw.connected_of_mem h.mem
  have hcov : catchAllEntry.ofMatch.Covers k := by
    simp [OFPMatch.Covers, ipv4Match, hk]
  exact (hw.known d e h.mem).of_le_priority (h.le (hw.catchAll d hd) hcov)

/-- An IPv4 frame that a table forwards matches a trust entry. -/
theorem Sound.forwards_ipv4 (hw : w.Sound) (hk : k.ethType = some ETH_TYPE_IP)
    (h : (w.tables d).Forwards k) :
    ∃ proto src dst port, (proto = 6 ∨ proto = 17) ∧
      trustFlowEntry proto src dst port ∈ w.tables d ∧
      (trustMatch proto src dst).Covers k := by
  obtain ⟨e, he, hdec, hout⟩ := h
  rcases hw.decides_ipv4 hk hdec with rfl | ⟨proto, src, dst, port, hproto, rfl⟩
  · simp at hout
  · exact ⟨proto, src, dst, port, hproto, he, hdec.covers⟩

/-- Another frame that a table forwards is decided by a learned entry. -/
theorem Sound.forwards_other (hw : w.Sound) (hk : k.ethType ≠ some ETH_TYPE_IP)
    (h : (w.tables d).Forwards k) :
    ∃ inPort ethPkt outPort, (w.tables d).Decides k (learnedEntry inPort ethPkt outPort) ∧
      (learnedEntry inPort ethPkt outPort).outPorts k ≠ [] := by
  obtain ⟨e, he, hdec, hout⟩ := h
  rcases (hw.known d e he).of_covers_other hdec.covers hk with
    rfl | ⟨inPort, ethPkt, outPort, rfl⟩ | ⟨ip, rfl, -⟩
  · simp at hout
  · exact ⟨inPort, ethPkt, outPort, hdec, hout⟩
  · simp at hout

/-- In a table without a learned entry between two ports, only IPv4 frames are forwarded. -/
theorem Sound.not_forwards_other (hw : w.Sound) (hk : k.ethType ≠ some ETH_TYPE_IP)
    (hlearned : ∀ inPort ethPkt outPort, learnedEntry inPort ethPkt outPort ∈ w.tables d →
      outPort = inPort) : ¬ (w.tables d).Forwards k := by
  intro h
  obtain ⟨inPort, ethPkt, outPort, hdec, hout⟩ := hw.forwards_other hk h
  obtain rfl : outPort = inPort := hlearned _ _ _ hdec.mem
  have hin : k.inPort = some outPort := (learnedMatch_covers.mp hdec.covers).1
  simp [FlowEntry.outPorts, hin] at hout

end World

end SdnFirewall
