import Mathlib.Data.Sym.Sym2
import SdnFirewall.Controller.Segments
import SdnFirewall.Packet.Mininet

/-!
# What a flow key stands for

A key is a protocol with an unordered pair of endpoints, written down with the smaller one first.
The DPI stage tells the two directions of a flow apart by the first endpoint of the key.
-/

namespace SdnFirewall

open Common OpenFlow Python

/-! ## Keys and pairs -/

/-- The flow a key names: its protocol, and its endpoints as a pair without order. -/
def TrustKey.flow (k : TrustKey) : ℕ × Sym2 Endpoint := (k.proto, s(k.a, k.b))

/-- The key of two endpoints names the flow between them. -/
theorem flow_trustKey (p : ℕ) (a b : Endpoint) :
    (trustKey p a.1 a.2 b.1 b.2).flow = (p, s(a, b)) := by
  rcases trustKey_endpoints p a.1 a.2 b.1 b.2 with h | h
  · rw [h]
    rfl
  · rw [h, Sym2.eq_swap]
    rfl

/-- A flow has only one key with the smaller endpoint first. -/
theorem eq_of_flow_eq {k k' : TrustKey} (hk : k.a.Le k.b) (hk' : k'.a.Le k'.b)
    (h : k.flow = k'.flow) : k = k' := by
  obtain ⟨p, a, b⟩ := k
  obtain ⟨p', a', b'⟩ := k'
  simp only [TrustKey.flow, Prod.mk.injEq, Sym2.eq_iff] at h
  obtain ⟨rfl, ⟨rfl, rfl⟩ | ⟨rfl, rfl⟩⟩ := h
  · rfl
  · have hab : a = b := Endpoint.le_antisymm hk hk'
    rw [hab]

/-- Two packets have one key exactly when they are of one protocol and between the same two
endpoints. -/
theorem trustKey_eq_iff {p q : ℕ} {a b c d : Endpoint} :
    trustKey p a.1 a.2 b.1 b.2 = trustKey q c.1 c.2 d.1 d.2 ↔ p = q ∧ s(a, b) = s(c, d) := by
  rw [← Prod.mk.injEq, ← flow_trustKey, ← flow_trustKey]
  exact ⟨congrArg TrustKey.flow,
    eq_of_flow_eq (trustKey_le p a.1 a.2 b.1 b.2) (trustKey_le q c.1 c.2 d.1 d.2)⟩

/-! ## Directions -/

namespace DpiCall

/-- The endpoint the segment is for. -/
def receiver (call : DpiCall) : Endpoint := (call.ipPkt.dst, call.tcpPkt.dstPort)

/-- The key has the two endpoints in order, whichever of them sends. -/
theorem key_eq (call : DpiCall) :
    call.key = if call.sender.Le call.receiver then
      ⟨call.ipPkt.proto, call.sender, call.receiver⟩
      else ⟨call.ipPkt.proto, call.receiver, call.sender⟩ := rfl

/-- A segment goes to buffer `a` exactly when no smaller endpoint than its sender is involved. -/
theorem side_eq_a_iff (call : DpiCall) : call.side = .a ↔ call.sender.Le call.receiver := by
  rw [side, TrustKey.side, key_eq]
  by_cases hle : call.sender.Le call.receiver
  · simp [hle]
  · rw [if_neg hle]
    have hne : call.sender ≠ call.receiver := by
      intro h
      rw [h] at hle
      exact hle ((Endpoint.le_total _ _).elim id id)
    simp [hle, hne]

/-- Between distinct endpoints, a segment goes to buffer `b` exactly when its sender is the larger
one. -/
theorem side_eq_b_iff {call : DpiCall} (hne : call.sender ≠ call.receiver) :
    call.side = .b ↔ call.receiver.Le call.sender := by
  have hb : call.side = .b ↔ ¬ call.side = .a := by cases call.side <;> simp
  rw [hb, side_eq_a_iff]
  constructor
  · exact (Endpoint.le_total _ _).resolve_left
  · exact fun hge hle => hne (Endpoint.le_antisymm hle hge)

/-- Two segments of one flow go to one buffer exactly when one endpoint has sent both. -/
theorem side_eq_iff {call call' : DpiCall} (hkey : call.key = call'.key) :
    call.side = call'.side ↔ call.sender = call'.sender := by
  constructor
  · intro h
    rw [sender_eq, sender_eq, hkey, h]
  · intro h
    rw [side, side, hkey, h]

/-- The call appends its payload, as far as there is room, to the one buffer of its flow and leaves
the other one alone. A blocked record is left alone altogether. -/
structure Feeds (call : DpiCall) (c : FirewallApp) (side : Side) : Prop where
  fed : (c.entryOf call.key).blocked = false →
    ((c.checked call).entryOf call.key).buf side = (c.entryOf call.key).buf side ++
      call.payload.take (MAX_BUFFER_BYTES - ((c.entryOf call.key).buf side).length)
  blocked : (c.entryOf call.key).blocked = true →
    ((c.checked call).entryOf call.key).buf side = (c.entryOf call.key).buf side
  other : ∀ side' ≠ side,
    ((c.checked call).entryOf call.key).buf side' = (c.entryOf call.key).buf side'

end DpiCall

/-- The buffers of a record after the DPI stage saw a payload. -/
theorem TrustEntry.buf_inspected (e : TrustEntry) (dpi : DPIEngine) (side side' : Side)
    (payload : Bytes) :
    (e.inspected dpi side payload).buf side' =
      if e.blocked = false ∧ side' = side then
        e.buf side ++ payload.take (MAX_BUFFER_BYTES - (e.buf side).length)
      else e.buf side' := by
  unfold TrustEntry.inspected
  by_cases hb : e.blocked = true
  · simp [hb]
  by_cases hp : payload = []
  · by_cases hside : side' = side
    · simp [hp, hside]
    · simp [hp, hside]
  · have hempty : ¬ (e.blocked = true ∨ payload.isEmpty = true) := by simp [hb, hp]
    rw [if_neg hempty]
    rw [Bool.not_eq_true] at hb
    cases side <;> cases side' <;> simp [hb, TrustEntry.fed, TrustEntry.setBuf, TrustEntry.buf]

/-- `_check_dpi` feeds the buffer of the segment's direction. -/
theorem feeds_side (call : DpiCall) (c : FirewallApp) : call.Feeds c call.side := by
  have hentry : (c.checked call).entryOf call.key = call.after c := by
    rw [FirewallApp.entryOf, trustTable_checked, Dict.get?_set, if_pos rfl, Option.getD_some]
  refine ⟨fun hb => ?_, fun hb => ?_, fun side' hside => ?_⟩
  · rw [hentry, DpiCall.after, TrustEntry.buf_inspected, if_pos ⟨hb, rfl⟩]
  · rw [hentry, DpiCall.after, TrustEntry.buf_inspected, if_neg (by simp [hb])]
  · rw [hentry, DpiCall.after, TrustEntry.buf_inspected, if_neg (by simp [hside])]

/-- A key identifies a protocol and an unordered pair of endpoints. Between distinct endpoints, what
the smaller one sends is buffered in `buf_a` and what the other one sends in `buf_b`, for all
segments of the flow alike. -/
theorem flowKey_canonical :
    (∀ (p q : ℕ) (a b c d : Endpoint),
      trustKey p a.1 a.2 b.1 b.2 = trustKey q c.1 c.2 d.1 d.2 ↔ p = q ∧ s(a, b) = s(c, d)) ∧
    (∀ (call : DpiCall) (c : FirewallApp), call.sender ≠ call.receiver →
      (call.sender.Le call.receiver → call.side = .a ∧ call.Feeds c .a) ∧
        (call.receiver.Le call.sender → call.side = .b ∧ call.Feeds c .b)) ∧
    ∀ call call' : DpiCall, call.key = call'.key →
      (call.side = call'.side ↔ call.sender = call'.sender) := by
  refine ⟨fun p q a b c d => trustKey_eq_iff, fun call c hne => ⟨fun hle => ?_, fun hge => ?_⟩,
    fun call call' => DpiCall.side_eq_iff⟩
  · have hside := call.side_eq_a_iff.mpr hle
    exact ⟨hside, hside ▸ feeds_side call c⟩
  · have hside := (DpiCall.side_eq_b_iff hne).mpr hge
    exact ⟨hside, hside ▸ feeds_side call c⟩

/-- Two segments between ports 80 and 100 of one host, one in each direction. -/
def ownHostCall : DpiCall :=
  ⟨⟨5, 42, 6, "10.0.0.1", "10.0.0.1"⟩, ⟨100, 80, 1, 5, 16⟩, [0x21]⟩

def ownHostReply : DpiCall :=
  ⟨⟨5, 42, 6, "10.0.0.1", "10.0.0.1"⟩, ⟨80, 100, 1, 5, 16⟩, [0x21]⟩

/-- A host that talks to itself has one key and two buffers. -/
theorem flowKey_canonical_ownHostCall :
    ownHostCall.Feeds (.init builtinEngine) .b ∧ ownHostCall.side ≠ ownHostReply.side := by
  refine ⟨?_, ?_⟩
  · exact ((flowKey_canonical.2.1 ownHostCall (.init builtinEngine) (by decide)).2
      (by decide +kernel)).2
  · intro h
    exact absurd ((flowKey_canonical.2.2 ownHostCall ownHostReply (by decide +kernel)).mp h)
      (by decide)

end SdnFirewall
