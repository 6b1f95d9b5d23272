import SdnFirewall.Packet.Mininet
import SdnFirewall.Properties.TrustTable
import SdnFirewall.System.Fabric

/-!
# Counting per packet

A frame that crosses several switches raises a packet-in at each of them, and the record of its flow
is the same everywhere. As long as no record counts or buffers a frame twice, its count stays within
the frames of the flow and its buffers are made of their payloads.
-/

namespace SdnFirewall

open Common OpenFlow Python

/-! ## Frames of a flow -/

/-- The key of the flow a frame belongs to. -/
def frameFlow? (data : Bytes) : Option TrustKey :=
  (Packet.parse data).ipv4.bind fun ipPkt =>
    (l4Of (Packet.parse data) ipPkt).map (flowKeyOf ipPkt)

/-- A frame as a segment of its flow. -/
def segment? (data : Bytes) : Option DpiCall :=
  (Packet.parse data).ipv4.bind fun ipPkt =>
    (Packet.parse data).tcp.map fun tcpPkt => ⟨ipPkt, tcpPkt, extractTcpPayload data ipPkt tcpPkt⟩

/-- What a packet-in shows the controller of a frame. -/
theorem segment?_of_dpiCall? {c : FirewallApp} {d : ℕ} {now : ℚ} {msg : PacketIn} {call : DpiCall}
    (h : c.dpiCall? (.packetIn d now msg) = some call) : segment? msg.data = some call := by
  obtain ⟨-, ethPkt, -, hcall⟩ := dpiCall?_eq_some.mp h
  obtain ⟨hip, htcp, -, -, -, -, hpay⟩ := dpiCallOf_eq_some.mp hcall
  rw [segment?, hip, htcp, Option.bind_some, Option.map_some, hpay]

/-- Payload is appended by a call for an open record whose buffer has room. -/
theorem feeds?_eq_some {c : FirewallApp} {ev : Event} {k : TrustKey} {side : Side} :
    c.feeds? ev = some (k, side) ↔ ∃ call, c.dpiCall? ev = some call ∧ call.key = k ∧
      call.side = side ∧ call.payload ≠ [] ∧ (c.entryOf k).blocked = false ∧
      ((c.entryOf k).buf side).length < MAX_BUFFER_BYTES := by
  simp only [FirewallApp.feeds?, Option.bind_eq_bind, Option.bind_eq_some_iff,
    Option.ite_none_right_eq_some, Option.some.injEq, Prod.mk.injEq]
  constructor
  · rintro ⟨call, hcall, ⟨hpay, hopen, hroom⟩, rfl, rfl⟩
    exact ⟨call, hcall, rfl, rfl, hpay, hopen, hroom⟩
  · rintro ⟨call, hcall, rfl, rfl, hpay, hopen, hroom⟩
    exact ⟨call, hcall, ⟨hpay, hopen, hroom⟩, rfl, rfl⟩

/-- The DPI stage appends to one buffer, while the flow is unblocked. -/
theorem buf_inspected (e : TrustEntry) (dpi : DPIEngine) (side side' : Side) (payload : Bytes) :
    (e.inspected dpi side payload).buf side' =
      if side' = side ∧ e.blocked = false then feed MAX_BUFFER_BYTES (e.buf side') payload
      else e.buf side' := by
  unfold TrustEntry.inspected
  by_cases hb : e.blocked = true
  · rw [if_pos (Or.inl hb), if_neg (by simp [hb])]
  · have hopen : e.blocked = false := by simpa using hb
    by_cases hpay : payload.isEmpty = true
    · obtain rfl := List.isEmpty_iff.mp hpay
      rw [if_pos (Or.inr hpay)]
      simp [feed]
    · rw [if_neg (by simp [hopen, hpay]), TrustEntry.buf_fed]
      by_cases hside : side' = side
      · subst hside
        rw [if_pos rfl, if_pos ⟨rfl, hopen⟩]
        simp [TrustEntry.fed, feed]
      · rw [if_neg hside, if_neg fun h => hside h.1]

/-- What an event that does not delete the record of a flow does to a buffer of it. -/
theorem buf_handle (compile : ReCompile) {c : FirewallApp} (hc : c.Keyed) {ev : Event}
    {k : TrustKey} (hdrop : ¬ c.Drops compile k ev) (side : Side) :
    (c.feeds? ev ≠ some (k, side) ∧
        ((c.handle compile ev).1.entryOf k).buf side = (c.entryOf k).buf side) ∨
      c.feeds? ev = some (k, side) ∧ ∃ call, c.dpiCall? ev = some call ∧ call.key = k ∧
        call.side = side ∧ ((c.handle compile ev).1.entryOf k).buf side =
          feed MAX_BUFFER_BYTES ((c.entryOf k).buf side) call.payload := by
  have hbuf : ((c.handle compile ev).1.entryOf k).buf side =
      ((c.inspected? ev k).getD {}).buf side := by
    rw [entryOf_handle hc hdrop]
    split
    · exact TrustEntry.buf_recorded _ _
    · rfl
  rw [hbuf]
  by_cases hfeeds : c.feeds? ev = some (k, side)
  · obtain ⟨call, hcall, rfl, rfl, -, hopen, -⟩ := feeds?_eq_some.mp hfeeds
    refine Or.inr ⟨hfeeds, call, hcall, rfl, rfl, ?_⟩
    simp only [getD_inspected?, hcall, if_true, DpiCall.after, buf_inspected, hopen, and_self]
  · refine Or.inl ⟨hfeeds, ?_⟩
    rcases getD_inspected?_cases c ev k with h | ⟨call, hcall, rfl, h⟩
    · rw [h]
    rw [h, DpiCall.after, buf_inspected]
    split
    swap
    · rfl
    rename_i hside
    obtain ⟨rfl, hopen⟩ := hside
    -- an open buffer that is not fed is full, or there is nothing to feed it with
    by_cases hpay : call.payload = []
    · rw [hpay, feed, List.take_nil, List.append_nil]
    · have hfull : ¬ ((c.entryOf call.key).buf call.side).length < MAX_BUFFER_BYTES :=
        fun hroom => hfeeds (feeds?_eq_some.mpr ⟨call, hcall, rfl, rfl, hpay, hopen, hroom⟩)
      rw [feed, Nat.sub_eq_zero_of_le (not_lt.mp hfull), List.take_zero, List.append_nil]

namespace Fabric

def flowOf (f : Fabric) (i : ℕ) : Option TrustKey := f.entered[i]?.bind frameFlow?

def segmentOf (f : Fabric) (i : ℕ) : Option DpiCall := f.entered[i]?.bind segment?

def payloadOf (f : Fabric) (i : ℕ) : Bytes := (f.segmentOf i).elim [] DpiCall.payload

/-- The frames of a flow that have entered the network. -/
def framesOf (f : Fabric) (k : TrustKey) : List ℕ :=
  (List.range f.entered.length).filter fun i => f.flowOf i = some k

/-- Those of them that are segments from an endpoint. -/
def framesFrom (f : Fabric) (k : TrustKey) (x : Endpoint) : List ℕ :=
  (List.range f.entered.length).filter fun i =>
    (f.segmentOf i).any fun seg => seg.key = k ∧ seg.sender = x

/-- Every frame counts at most once, and every buffer begins what the frames of its endpoint carry,
each taken once. -/
structure PerPacket (f : Fabric) : Prop where
  count_le : ∀ k, (f.world.ctl.entryOf k).count ≤ (f.framesOf k).length
  buf_prefix : ∀ k side, ∃ order : List ℕ, order.Perm (f.framesFrom k (k.endpoint side)) ∧
    (f.world.ctl.entryOf k).buf side <+: order.flatMap f.payloadOf

/-- A packet-in is counted, or its payload is buffered, for a record that has already counted or
buffered another packet-in of the same frame. -/
def Repeats (f : Fabric) : FabricEvent → Prop
  | .handle a now msg => f.Raises a msg ∧
    ((∃ k, f.world.ctl.AddsTo (.packetIn a.dpid now msg) k ∧ a.frame ∈ f.counted k) ∨
      ∃ k side, f.world.ctl.feeds? (.packetIn a.dpid now msg) = some (k, side) ∧
        a.frame ∈ f.fed k side)
  | _ => False

instance (f : Fabric) (fe : FabricEvent) : Decidable (f.Repeats fe) :=
  match fe with
  | .handle a now msg =>
    let ev := Event.packetIn a.dpid now msg
    let flow? := (f.world.ctl.counted? ev).map fun t => flowKeyOf t.1 t.2
    decidable_of_iff (f.Raises a msg ∧
      ((∃ k ∈ flow?, (f.world.ctl.entryOf k).installed = false ∧ a.frame ∈ f.counted k) ∨
        ∃ fed ∈ f.world.ctl.feeds? ev, a.frame ∈ f.fed fed.1 fed.2))
      (and_congr_right fun _ => or_congr
        (exists_congr fun _ => and_assoc.symm) Prod.exists)
  | .enter .. | .forward .. | .handshake _ | .rest _ | .expire .. => isFalse id

/-- What the lists of counted and buffered frames stand for. -/
structure Tracks (f : Fabric) : Prop where
  trust : f.world.TrustSound
  count_eq : ∀ k, (f.world.ctl.entryOf k).count = (f.counted k).length
  counted_nodup : ∀ k, (f.counted k).Nodup
  counted_of : ∀ k, ∀ i ∈ f.counted k, f.flowOf i = some k
  buf_eq : ∀ k side, (f.world.ctl.entryOf k).buf side =
    ((f.fed k side).flatMap f.payloadOf).take MAX_BUFFER_BYTES
  fed_nodup : ∀ k side, (f.fed k side).Nodup
  fed_of : ∀ k side, ∀ i ∈ f.fed k side, ∃ seg, f.segmentOf i = some seg ∧ seg.key = k ∧
    seg.sender = k.endpoint side

/-- Only a frame that has entered is of a flow. -/
theorem lt_of_flowOf {f : Fabric} {i : ℕ} {k : TrustKey} (h : f.flowOf i = some k) :
    i < f.entered.length := by
  obtain ⟨data, hdata, -⟩ := Option.bind_eq_some_iff.mp h
  exact (List.getElem?_eq_some_iff.mp hdata).1

/-- And only such a frame is a segment. -/
theorem lt_of_segmentOf {f : Fabric} {i : ℕ} {seg : DpiCall} (h : f.segmentOf i = some seg) :
    i < f.entered.length := by
  obtain ⟨data, hdata, -⟩ := Option.bind_eq_some_iff.mp h
  exact (List.getElem?_eq_some_iff.mp hdata).1

/-- A list of different frames can be completed to one of all of them. -/
theorem Tracks.perPacket {f : Fabric} (h : f.Tracks) : f.PerPacket where
  count_le := fun k => by
    rw [h.count_eq]
    refine ((h.counted_nodup k).subperm fun i hi => ?_).length_le
    have hk := h.counted_of k i hi
    exact List.mem_filter.mpr ⟨List.mem_range.mpr (lt_of_flowOf hk), decide_eq_true hk⟩
  buf_prefix := fun k side => by
    have hsub : (f.fed k side).Subperm (f.framesFrom k (k.endpoint side)) := by
      refine (h.fed_nodup k side).subperm fun i hi => ?_
      obtain ⟨seg, hseg, hkey, hsender⟩ := h.fed_of k side i hi
      refine List.mem_filter.mpr ⟨List.mem_range.mpr (lt_of_segmentOf hseg), ?_⟩
      simp [hseg, hkey, hsender]
    refine ⟨f.fed k side ++ (f.framesFrom k (k.endpoint side)).diff (f.fed k side),
      List.subperm_append_diff_self_of_count_le ?_, ?_⟩
    · exact fun i _ => hsub.count_le i
    · rw [h.buf_eq, List.flatMap_append]
      exact (List.take_prefix _ _).trans (List.prefix_append _ _)

/-- At first nothing is counted or buffered. -/
theorem tracks_init (dpi : DPIEngine) : (init dpi).Tracks where
  trust := World.trustSound_init dpi
  count_eq := fun _ => rfl
  counted_nodup := fun _ => List.nodup_nil
  counted_of := fun _ _ hi => absurd hi List.not_mem_nil
  buf_eq := fun _ side => by cases side <;> rfl
  fed_nodup := fun _ _ => List.nodup_nil
  fed_of := fun _ _ _ hi => absurd hi List.not_mem_nil

section Kept

variable {gone hit : Prop} [Decidable gone] [Decidable hit] {frames : List ℕ} {frame : Option ℕ}

/-- A list that is dropped with its record and takes in new frames only holds none twice. -/
theorem nodup_kept (h : frames.Nodup) (hnew : hit → ∃ i, frame = some i ∧ i ∉ frames) :
    (if gone then [] else if hit then frames ++ frame.toList else frames).Nodup := by
  split
  · exact List.nodup_nil
  split
  · rename_i hhit
    obtain ⟨i, rfl, hi⟩ := hnew hhit
    rw [Option.toList_some, List.nodup_append_comm]
    exact List.nodup_cons.mpr ⟨hi, h⟩
  · exact h

/-- What holds of the frames of such a list and of those it takes in stays true of all. -/
theorem forall_mem_kept {P : ℕ → Prop} (h : ∀ i ∈ frames, P i)
    (hnew : hit → ∃ i, frame = some i ∧ P i) :
    ∀ i ∈ (if gone then [] else if hit then frames ++ frame.toList else frames), P i := by
  split
  · exact fun i hi => absurd hi List.not_mem_nil
  split
  · rename_i hhit
    obtain ⟨j, rfl, hj⟩ := hnew hhit
    intro i hi
    rcases List.mem_append.mp hi with hi | hi
    · exact h i hi
    · exact List.mem_singleton.mp hi ▸ hj
  · exact h

end Kept

section Control

variable {compile : ReCompile} {f : Fabric} {frame : Option ℕ} {ev : Event}

/-- The list of counted frames grows with the count of the record. -/
theorem Tracks.count_control (h : f.Tracks) {k : TrustKey}
    (hcounts : f.world.ctl.AddsTo ev k → ∃ i, frame = some i) :
    ((f.control compile frame ev).world.ctl.entryOf k).count =
      ((f.control compile frame ev).counted k).length := by
  have hw := h.trust
  show ((f.world.step compile ev).ctl.entryOf k).count = List.length
    (if (f.world.step compile ev).ctl.trustTable.get? k = none then []
      else if f.world.ctl.AddsTo ev k then f.counted k ++ frame.toList else f.counted k)
  by_cases hnone : (f.world.step compile ev).ctl.trustTable.get? k = none
  · rw [if_pos hnone, entryOf_of_get?_none hnone]
    rfl
  have hcount : ((f.world.step compile ev).ctl.entryOf k).count = _ :=
    count_handle hw.sound.keyed hw.wellFormed (not_drops_of_get? hw.sound.keyed hnone)
  have hle := (hw.wellFormed.entryOf k).count_le
  have hinst := (hw.wellFormed.entryOf k).installed_iff
  rw [if_neg hnone, hcount]
  by_cases hadds : f.world.ctl.AddsTo ev k
  · obtain ⟨i, rfl⟩ := hcounts hadds
    -- an unmarked record is below the threshold
    have hne : (f.world.ctl.entryOf k).count ≠ TRUST_K := fun hc => by
      have hopen := hadds.2
      rw [hinst.mpr hc] at hopen
      exact absurd hopen (by simp)
    rw [if_pos hadds, if_pos hadds.1, List.length_append, ← h.count_eq]
    simp only [Option.toList_some, List.length_singleton]
    omega
  · rw [if_neg hadds, ← h.count_eq]
    split
    · rename_i hc
      -- a marked record has reached the threshold
      have hmarked : (f.world.ctl.entryOf k).installed = true := by
        by_contra hnot
        exact hadds ⟨hc, by simpa using hnot⟩
      have := hinst.mp hmarked
      omega
    · rfl

/-- The list of buffered frames grows with the buffer. -/
theorem Tracks.buf_control (h : f.Tracks) {k : TrustKey} {side : Side}
    (hfeeds : f.world.ctl.feeds? ev = some (k, side) →
      ∃ i, frame = some i ∧ f.segmentOf i = f.world.ctl.dpiCall? ev) :
    ((f.control compile frame ev).world.ctl.entryOf k).buf side =
      (((f.control compile frame ev).fed k side).flatMap f.payloadOf).take MAX_BUFFER_BYTES := by
  have hkeyed := h.trust.sound.keyed
  show ((f.world.step compile ev).ctl.entryOf k).buf side = List.take MAX_BUFFER_BYTES
    (List.flatMap f.payloadOf
      (if (f.world.step compile ev).ctl.trustTable.get? k = none then []
        else if f.world.ctl.feeds? ev = some (k, side) then f.fed k side ++ frame.toList
        else f.fed k side))
  -- a record that is gone starts over, with no frames
  by_cases hnone : (f.world.step compile ev).ctl.trustTable.get? k = none
  · rw [if_pos hnone, entryOf_of_get?_none hnone]
    cases side <;> rfl
  rw [if_neg hnone]
  rcases buf_handle compile hkeyed (not_drops_of_get? hkeyed hnone) side with
    ⟨hnot, hbuf⟩ | ⟨hyes, call, hcall, hkey, hside, hbuf⟩
  · rw [if_neg hnot]
    exact hbuf.trans (h.buf_eq k side)
  · obtain ⟨i, rfl, hseg⟩ := hfeeds hyes
    have hpay : f.payloadOf i = call.payload := by
      rw [payloadOf, hseg, hcall]
      rfl
    have hnext : ((f.world.step compile ev).ctl.entryOf k).buf side = _ := hbuf
    rw [if_pos hyes, hnext, h.buf_eq, feed_take, Option.toList_some, List.flatMap_append,
      List.flatMap_singleton, ← hpay]

/-- The controller's events keep track of the frames, if those they count and buffer are new. -/
theorem tracks_control (h : f.Tracks)
    (hcounts : ∀ k, f.world.ctl.AddsTo ev k → ∃ i, frame = some i ∧ i ∉ f.counted k ∧
      f.flowOf i = some k)
    (hfeeds : ∀ k side, f.world.ctl.feeds? ev = some (k, side) → ∃ i, frame = some i ∧
      i ∉ f.fed k side ∧ f.segmentOf i = f.world.ctl.dpiCall? ev) :
    (f.control compile frame ev).Tracks where
  trust := World.trustSound_step h.trust ev
  count_eq := fun k => h.count_control fun hadds => by
    obtain ⟨i, hi, -⟩ := hcounts k hadds
    exact ⟨i, hi⟩
  counted_nodup := fun k => nodup_kept (h.counted_nodup k) fun hadds => by
    obtain ⟨i, hi, hnew, -⟩ := hcounts k hadds
    exact ⟨i, hi, hnew⟩
  counted_of := fun k => forall_mem_kept (h.counted_of k) fun hadds => by
    obtain ⟨i, hi, -, hflow⟩ := hcounts k hadds
    exact ⟨i, hi, hflow⟩
  buf_eq := fun k side => h.buf_control fun hyes => by
    obtain ⟨i, hi, -, hseg⟩ := hfeeds k side hyes
    exact ⟨i, hi, hseg⟩
  fed_nodup := fun k side => nodup_kept (h.fed_nodup k side) fun hyes => by
    obtain ⟨i, hi, hnew, -⟩ := hfeeds k side hyes
    exact ⟨i, hi, hnew⟩
  fed_of := fun k side => forall_mem_kept (h.fed_of k side) fun hyes => by
    obtain ⟨i, hi, -, hseg⟩ := hfeeds k side hyes
    obtain ⟨call, hcall, rfl, rfl, -⟩ := feeds?_eq_some.mp hyes
    exact ⟨i, hi, call, hseg.trans hcall, rfl, call.sender_eq⟩

end Control

/-- An event without a packet counts and buffers nothing. -/
theorem tracks_control_none {compile : ReCompile} {f : Fabric} (h : f.Tracks) {ev : Event}
    (hev : ev.flow? = none) : (f.control compile none ev).Tracks := by
  refine tracks_control h (fun k hadds => ?_) (fun k side hfeeds => ?_)
  · have hk := (flow?_of_counts hadds.1).2
    rw [hev] at hk
    exact absurd hk (by simp)
  · obtain ⟨call, hcall, -⟩ := feeds?_eq_some.mp hfeeds
    have hk := (flow?_of_dpiCall? hcall).1
    rw [hev] at hk
    exact absurd hk (by simp)

/-- Where the frames are makes no difference to what has been counted. -/
theorem Tracks.of_arrivals {f : Fabric} (h : f.Tracks) (arrivals : List FrameAt) :
    ({ f with arrivals } : Fabric).Tracks :=
  ⟨h.trust, h.count_eq, h.counted_nodup, h.counted_of, h.buf_eq, h.fed_nodup, h.fed_of⟩

/-- A frame that enters leaves the earlier ones what they are. -/
theorem tracks_enter {compile : ReCompile} {cables : List Cable} {f : Fabric} (h : f.Tracks)
    (d inPort : ℕ) (data : Bytes) :
    (f.step compile cables (.enter d inPort data)).Tracks := by
  -- the new frame has the next number, so nothing earlier is renumbered
  have hold : ∀ i < f.entered.length, (f.entered ++ [data])[i]? = f.entered[i]? :=
    fun i hi => List.getElem?_append_left hi
  have hflow : ∀ i k, f.flowOf i = some k →
      (f.step compile cables (.enter d inPort data)).flowOf i = some k := by
    intro i k hk
    show ((f.entered ++ [data])[i]?).bind frameFlow? = _
    rw [hold i (lt_of_flowOf hk)]
    exact hk
  have hseg : ∀ i seg, f.segmentOf i = some seg →
      (f.step compile cables (.enter d inPort data)).segmentOf i = some seg := by
    intro i seg hi
    show ((f.entered ++ [data])[i]?).bind segment? = _
    rw [hold i (lt_of_segmentOf hi)]
    exact hi
  have hpay : ∀ k side, (f.fed k side).flatMap f.payloadOf =
      (f.fed k side).flatMap (f.step compile cables (.enter d inPort data)).payloadOf := by
    intro k side
    refine List.flatMap_congr fun i hi => ?_
    obtain ⟨seg, hi, -⟩ := h.fed_of k side i hi
    rw [payloadOf, payloadOf, hi, hseg i seg hi]
  refine ⟨h.trust, h.count_eq, h.counted_nodup, fun k i hi => hflow i k (h.counted_of k i hi),
    fun k side => ?_, h.fed_nodup, fun k side i hi => ?_⟩
  · exact (h.buf_eq k side).trans (by rw [hpay]; rfl)
  · obtain ⟨seg, hi, hkey, hsender⟩ := h.fed_of k side i hi
    exact ⟨seg, hseg i seg hi, hkey, hsender⟩

/-- Every event that repeats no frame keeps track of them. -/
theorem tracks_step {compile : ReCompile} {cables : List Cable} {f : Fabric} (h : f.Tracks)
    {fe : FabricEvent} (hfe : ¬ f.Repeats fe) : (f.step compile cables fe).Tracks := by
  cases fe with
  | enter d inPort data => exact tracks_enter h d inPort data
  | forward a e =>
      unfold step
      dsimp only
      split
      · exact h.of_arrivals _
      · exact h
  | handshake d => exact tracks_control_none h rfl
  | rest req => exact tracks_control_none h rfl
  | expire d e => exact tracks_control_none h rfl
  -- here the hypothesis comes in: the frame was not yet counted or buffered for its flow
  | handle a now msg =>
      by_cases hraises : f.Raises a msg
      swap
      · rw [step, if_neg hraises]
        exact h
      rw [step, if_pos hraises]
      refine (tracks_control h (fun k hadds => ?_) fun k side hfeeds => ?_).of_arrivals _
      · refine ⟨a.frame, rfl, fun hi => hfe ⟨hraises, Or.inl ⟨k, hadds, hi⟩⟩, ?_⟩
        rw [flowOf, hraises.2.2, Option.bind_some]
        exact (flow?_of_counts hadds.1).2
      · refine ⟨a.frame, rfl, fun hi => hfe ⟨hraises, Or.inr ⟨k, side, hfeeds, hi⟩⟩, ?_⟩
        obtain ⟨call, hcall, -⟩ := feeds?_eq_some.mp hfeeds
        rw [segmentOf, hraises.2.2, Option.bind_some, hcall]
        exact segment?_of_dpiCall? hcall

/-- Counting and inspection are per packet in every state of a run in which no record counts or
buffers a second packet-in of one frame. -/
theorem perPacket_run (compile : ReCompile) (cables : List Cable) (dpi : DPIEngine)
    (fes : List FabricEvent)
    (h : Along (step compile cables) (fun f fe => ¬ f.Repeats fe) (init dpi) fes) (n : ℕ) :
    (run compile cables dpi (fes.take n)).PerPacket := by
  rw [← List.take_append_drop n fes] at h
  exact ((along_append.mp h).1.invariant Tracks (fun _ _ hf hfe => tracks_step hf hfe)
    (tracks_init dpi)).perPacket

/-- Port 9 of switch 1 is cabled to port 9 of switch 2. -/
def twoSwitchCables : List Cable := [⟨1, 9, 2, 9⟩, ⟨2, 9, 1, 9⟩]

/-- The packet-in of a frame that has come in by the cable. -/
def packetInByCable (data : Bytes) : PacketIn := packetInFrom 8 data

/-- Host 1 is at switch 1 and host 2 at switch 2. Both switches hear of host 2, then host 1 sends
it one datagram. -/
def twoSwitchRun : List FabricEvent :=
  [.handshake 1, .handshake 2,
    .enter 2 3 (arpFrame 2 1 2),
    .handle ⟨0, 2, 3⟩ 0 (packetInFrom 2 (arpFrame 2 1 2)),
    .handle ⟨0, 1, 9⟩ 0 (packetInByCable (arpFrame 2 1 2)),
    .enter 1 2 (udpFrame 1 2 100 53),
    .handle ⟨1, 1, 2⟩ 0 (packetInFrom 1 (udpFrame 1 2 100 53)),
    .handle ⟨1, 2, 9⟩ 0 (packetInByCable (udpFrame 1 2 100 53))]

/-- Host 1 sends host 2 a datagram and then a segment, and only switch 1 asks what to do. -/
def oncePerFrame : List FabricEvent :=
  twoSwitchRun.take 7 ++
    [.enter 1 2 (tcpFrame 1 2 100 80 [71, 69]),
      .handle ⟨2, 1, 2⟩ 0 (packetInFrom 1 (tcpFrame 1 2 100 80 [71, 69]))]

/-- The datagram is counted and the segment buffered, each once. -/
theorem perPacket_run_oncePerFrame :
    (run builtinCompile twoSwitchCables builtinEngine (oncePerFrame.take 9)).PerPacket ∧
      ((run builtinCompile twoSwitchCables builtinEngine oncePerFrame).world.ctl.entryOf
        (trustKey 17 "10.0.0.1" 100 "10.0.0.2" 53)).count = 1 ∧
      ((run builtinCompile twoSwitchCables builtinEngine oncePerFrame).world.ctl.entryOf
        (trustKey 6 "10.0.0.1" 100 "10.0.0.2" 80)).bufA = [71, 69] :=
  ⟨perPacket_run builtinCompile twoSwitchCables builtinEngine oncePerFrame
    (by decide +kernel) 9, by decide +kernel, by decide +kernel⟩

/-- The one datagram has been counted at both switches. -/
theorem not_perPacket_twoSwitchRun :
    ¬ (run builtinCompile twoSwitchCables builtinEngine twoSwitchRun).PerPacket := by
  intro h
  have hle := h.count_le (trustKey 17 "10.0.0.1" 100 "10.0.0.2" 53)
  revert hle
  decide +kernel

end Fabric

end SdnFirewall
