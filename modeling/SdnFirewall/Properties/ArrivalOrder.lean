import SdnFirewall.Properties.Isolation
import SdnFirewall.Properties.Reassembly

/-!
# The buffers follow arrival, not sequence numbers

The DPI stage appends payloads as they arrive. Whether a flow ends blocked is told by the bytes of
each direction in arrival order, wherever they are cut; a segment that comes late or comes twice
makes it a different byte string from the one the receiver reassembles.
-/

namespace SdnFirewall

open Common OpenFlow Python

/-! ## Bytes in arrival order -/

/-- The segments of a flow take its record through a scan. -/
theorem scan_run_checked (c : FirewallApp) (k : TrustKey) (calls : List DpiCall) :
    ((runFrom FirewallApp.checked c calls).entryOf k).scan =
      (c.entryOf k).scan.run MAX_BUFFER_BYTES c.dpi.test
        ((ofFlow k calls).map DpiCall.chunk) := by
  induction calls generalizing c with
  | nil => rfl
  | cons call calls ih =>
      rw [runFrom_cons, ih, dpi_checked, ofFlow, ofFlow]
      have hentry : (c.checked call).entryOf k =
          if k = call.key then call.after c else c.entryOf k := by
        rw [FirewallApp.entryOf, trustTable_checked, Dict.get?_set]
        by_cases hk : k = call.key <;> simp [hk, FirewallApp.entryOf]
      rw [hentry]
      by_cases hk : call.key = k
      · subst hk
        rw [if_pos rfl, List.filter_cons_of_pos (by simp), List.map_cons, DpiCall.after,
          scan_inspected]
        rfl
      · rw [if_neg (Ne.symm hk), List.filter_cons_of_neg (by simpa using hk)]

/-- The calls of a flow have its key. -/
theorem key_of_mem_ofFlow {k : TrustKey} (calls : List DpiCall) :
    ∀ call ∈ ofFlow k calls, call.key = k := by
  intro call hcall
  simpa using (List.mem_filter.mp hcall).2

/-- A flow ends blocked when it was blocked before, or when one direction has carried something and
its buffer, fed all of it at once, matches. -/
theorem blocked_run_checked {c : FirewallApp} (hext : c.dpi.ExtensionMonotone) (k : TrustKey)
    (calls : List DpiCall) :
    ((runFrom FirewallApp.checked c calls).entryOf k).blocked = true ↔
      (c.entryOf k).blocked = true ∨ ∃ side,
        channel side ((ofFlow k calls).map DpiCall.chunk) ≠ [] ∧
          c.dpi.test (feed MAX_BUFFER_BYTES ((c.entryOf k).buf side)
            (channel side ((ofFlow k calls).map DpiCall.chunk))) = true := by
  have hhit : ((c.entryOf k).scan.run MAX_BUFFER_BYTES c.dpi.test
      ((ofFlow k calls).map DpiCall.chunk)).hit = true ↔ _ :=
    Scan.hit_run (test_append hext) _ _
  rw [← scan_run_checked] at hhit
  exact hhit

/-- Two arrival sequences whose segments of a flow carry the same bytes in arrival order, direction
by direction, leave the flow blocked or unblocked alike: the cuts between the segments, the other
flows and the sequence numbers do not matter. -/
theorem blocked_eq_of_sameBytes (c : FirewallApp) (hext : c.dpi.ExtensionMonotone) (k : TrustKey)
    (calls calls' : List DpiCall)
    (h : ∀ x, sentFrom x (ofFlow k calls) = sentFrom x (ofFlow k calls')) :
    ((runFrom FirewallApp.checked c calls).entryOf k).blocked =
      ((runFrom FirewallApp.checked c calls').entryOf k).blocked := by
  obtain ⟨ha, hb⟩ := channel_chunks (key_of_mem_ofFlow (k := k) calls)
  obtain ⟨ha', hb'⟩ := channel_chunks (key_of_mem_ofFlow (k := k) calls')
  have hchannel : ∀ side, channel side ((ofFlow k calls).map DpiCall.chunk) =
      channel side ((ofFlow k calls').map DpiCall.chunk) := by
    intro side
    cases side with
    | a => rw [ha, ha', h]
    | b => rw [hb, hb', h]
  rw [Bool.eq_iff_iff, blocked_run_checked hext, blocked_run_checked hext]
  simp only [hchannel]

/-! ## Sequence numbers -/

/-- The segment holds the bytes of a stream from position `off` on, as its sequence number says. -/
structure SitsAt (isn : ℕ) (stream : Bytes) (call : DpiCall) (off : ℕ) : Prop where
  seq : call.tcpPkt.seq = (isn + off) % 2 ^ 32
  fits : off + call.payload.length ≤ stream.length
  bytes : call.payload = (stream.drop off).take call.payload.length

/-- The segments of one direction carry the stream: each holds a part of it, and every byte is in
one of them. Nothing is said about their order, nor about overlaps and repetitions. -/
structure Carries (isn : ℕ) (stream : Bytes) (sender : Endpoint) (k : TrustKey)
    (calls : List DpiCall) : Prop where
  flow : ∀ call ∈ calls, call.key = k ∧ call.sender = sender
  sits : ∀ call ∈ calls, ∃ off, SitsAt isn stream call off
  covers : ∀ i < stream.length, ∃ call ∈ calls, ∃ off, SitsAt isn stream call off ∧ off ≤ i ∧
    i < off + call.payload.length

/-- A segment of host 1 to the web server of host 2. -/
def streamCall (seq : ℕ) (payload : Bytes) : DpiCall :=
  ⟨⟨5, 40 + payload.length, 6, "10.0.0.1", "10.0.0.2"⟩, ⟨100, 80, seq, 5, 16⟩, payload⟩

/-- The flow of these segments. -/
def streamKey : TrustKey := ⟨6, ("10.0.0.1", 100), ("10.0.0.2", 80)⟩

/-- The stream `x--y`, which contains a comment sequence. -/
def commentStream : Bytes := [0x78, 0x2d, 0x2d, 0x79]

/-- Its two halves, cut inside the comment sequence, and its first byte alone. -/
def firstHalf : DpiCall := streamCall 1 [0x78, 0x2d]

def secondHalf : DpiCall := streamCall 3 [0x2d, 0x79]

def firstByte : DpiCall := streamCall 1 [0x78]

/-- The first half of the stream carries its beginning. -/
theorem sitsAt_firstHalf : SitsAt 1 commentStream firstHalf 0 := by
  constructor <;> decide +kernel

/-- The second half carries what follows it. -/
theorem sitsAt_secondHalf : SitsAt 1 commentStream secondHalf 2 := by
  constructor <;> decide +kernel

/-- The segment of one byte carries the beginning, too. -/
theorem sitsAt_firstByte : SitsAt 1 commentStream firstByte 0 := by
  constructor <;> decide +kernel

/-- Any arrival sequence made of these segments that has both halves carries the stream. -/
theorem carries_commentStream {calls : List DpiCall}
    (hmem : ∀ call ∈ calls, call = firstHalf ∨ call = secondHalf ∨ call = firstByte)
    (hfirst : firstHalf ∈ calls) (hsecond : secondHalf ∈ calls) :
    Carries 1 commentStream ("10.0.0.1", 100) streamKey calls := by
  refine ⟨fun call hcall => ?_, fun call hcall => ?_, fun i hi => ?_⟩
  · rcases hmem call hcall with rfl | rfl | rfl <;> decide +kernel
  · rcases hmem call hcall with rfl | rfl | rfl
    · exact ⟨0, sitsAt_firstHalf⟩
    · exact ⟨2, sitsAt_secondHalf⟩
    · exact ⟨0, sitsAt_firstByte⟩
  · have hlen : i < 4 := hi
    by_cases h : i < 2
    · exact ⟨firstHalf, hfirst, 0, sitsAt_firstHalf, Nat.zero_le i, h⟩
    · have hend : i < 2 + secondHalf.payload.length := hlen
      exact ⟨secondHalf, hsecond, 2, sitsAt_secondHalf, not_lt.mp h, hend⟩

/-- The halves in order get the flow blocked; swapped, or with a byte repeated between them, they do
not, although they carry the same stream. -/
theorem not_blocked_reordered :
    (FirewallApp.init builtinEngine).dpi.ExtensionMonotone ∧
    Carries 1 commentStream ("10.0.0.1", 100) streamKey [firstHalf, secondHalf] ∧
    Carries 1 commentStream ("10.0.0.1", 100) streamKey [secondHalf, firstHalf] ∧
    Carries 1 commentStream ("10.0.0.1", 100) streamKey [firstHalf, firstByte, secondHalf] ∧
    ((runFrom FirewallApp.checked (.init builtinEngine)
      [firstHalf, secondHalf]).entryOf streamKey).blocked = true ∧
    ((runFrom FirewallApp.checked (.init builtinEngine)
      [secondHalf, firstHalf]).entryOf streamKey).blocked = false ∧
    ((runFrom FirewallApp.checked (.init builtinEngine)
      [firstHalf, firstByte, secondHalf]).entryOf streamKey).blocked = false := by
  refine ⟨extensionMonotone_builtinEngine, carries_commentStream ?_ ?_ ?_,
    carries_commentStream ?_ ?_ ?_, carries_commentStream ?_ ?_ ?_,
    by decide +kernel, by decide +kernel, by decide +kernel⟩
  all_goals simp

/-- The stream cut at another place. -/
theorem blocked_eq_recut :
    ((runFrom FirewallApp.checked (.init builtinEngine)
      [firstHalf, secondHalf]).entryOf streamKey).blocked =
    ((runFrom FirewallApp.checked (.init builtinEngine)
      [firstByte, streamCall 2 [0x2d, 0x2d], streamCall 4 [0x79]]).entryOf streamKey).blocked := by
  refine blocked_eq_of_sameBytes _ extensionMonotone_builtinEngine streamKey _ _ fun x => ?_
  have hall : ∀ call ∈ [firstHalf, secondHalf, firstByte, streamCall 2 [0x2d, 0x2d],
      streamCall 4 [0x79]], call.key = streamKey ∧ call.sender = ("10.0.0.1", 100) := by
    decide +kernel
  simp only [List.forall_mem_cons, List.not_mem_nil, false_implies, implies_true, and_true] at hall
  obtain ⟨⟨h1, s1⟩, ⟨h2, s2⟩, ⟨h3, s3⟩, ⟨h4, s4⟩, h5, s5⟩ := hall
  by_cases hx : (("10.0.0.1", 100) : Endpoint) = x
  · simp [ofFlow, sentFrom, h1, h2, h3, h4, h5, s1, s2, s3, s4, s5, hx]
    rfl
  · simp [ofFlow, sentFrom, h1, h2, h3, h4, h5, s1, s2, s3, s4, s5, hx]

end SdnFirewall
