import SdnFirewall.Common.Scan
import SdnFirewall.Properties.Inspection

/-!
# Reassembly does not depend on segmentation

A record is a scan of two channels, the two directions of its flow. So its buffers are the
beginnings of the two streams, and for signatures that are kept by extension the flow is blocked
exactly when one of the whole streams, cut at the cap, matches.
-/

namespace SdnFirewall

open Common OpenFlow Python

/-! ## Records as scans -/

/-- A record as the state of a scan. -/
def TrustEntry.scan (e : TrustEntry) : Scan Side UInt8 := ⟨e.buf, e.blocked⟩

/-- The test inspection puts the buffers to. -/
abbrev DPIEngine.test (dpi : DPIEngine) (b : Bytes) : Bool := (dpi.inspect b).isMatch

/-- The chunk a DPI call feeds. -/
def DpiCall.chunk (call : DpiCall) : Side × Bytes := (call.side, call.payload)

/-- The DPI stage is one step of the scan. -/
theorem scan_inspected (e : TrustEntry) (dpi : DPIEngine) (side : Side) (payload : Bytes) :
    (e.inspected dpi side payload).scan =
      e.scan.step MAX_BUFFER_BYTES dpi.test (side, payload) := by
  have hcond : (e.blocked = true ∨ payload.isEmpty = true) ↔
      e.scan.hit = true ∨ payload = [] := by
    rw [List.isEmpty_iff]
    rfl
  rw [TrustEntry.inspected, Scan.step]
  by_cases hidle : e.blocked = true ∨ payload.isEmpty = true
  · rw [if_pos hidle, if_pos (hcond.mp hidle)]
  · rw [if_neg hidle, if_neg (mt hcond.mpr hidle)]
    have hfed : (e.fed side payload).buf side =
        feed MAX_BUFFER_BYTES (e.scan.buf side) payload := by
      simp [TrustEntry.fed, feed, TrustEntry.scan]
    refine Scan.ext (funext fun side' => ?_) (by rw [← hfed]; rfl)
    show TrustEntry.buf _ side' = Function.update e.buf side _ side'
    rw [TrustEntry.buf_fed, Function.update_apply, hfed]

/-- Counting a packet does not touch what inspection has seen. -/
theorem scan_recorded (e : TrustEntry) : e.recorded.scan = e.scan := by
  refine Scan.ext (funext fun side => e.buf_recorded side) e.blocked_recorded

namespace FirewallApp

/-- The call of `_check_dpi` an event leads to for a flow, if it leads to one. -/
def callsFor (c : FirewallApp) (k : TrustKey) (ev : Event) : List DpiCall :=
  (c.dpiCall? ev).toList.filter fun call => call.key = k

/-- The same, while the flow is unblocked. -/
def openCallsFor (c : FirewallApp) (k : TrustKey) (ev : Event) : List DpiCall :=
  if (c.entryOf k).blocked then [] else c.callsFor k ev

end FirewallApp

/-- An event leads to at most one call. -/
theorem callsFor_cases (c : FirewallApp) (k : TrustKey) (ev : Event) :
    c.callsFor k ev = [] ∨ ∃ call, call.key = k ∧ c.callsFor k ev = [call] := by
  rw [FirewallApp.callsFor]
  cases c.dpiCall? ev with
  | none => exact Or.inl rfl
  | some call =>
      by_cases hk : call.key = k
      · exact Or.inr ⟨call, hk, by simp [hk]⟩
      · exact Or.inl (by simp [hk])

/-- An event that deletes no record takes the record of a flow through the scan of its calls. -/
theorem scan_handle (compile : ReCompile) {c : FirewallApp} (hc : c.Keyed) {ev : Event}
    {k : TrustKey} (hdrop : ¬ c.Drops compile k ev) :
    ((c.handle compile ev).1.entryOf k).scan =
      (c.entryOf k).scan.run MAX_BUFFER_BYTES c.dpi.test ((c.callsFor k ev).map DpiCall.chunk) := by
  have hins : ((c.handle compile ev).1.entryOf k).scan = ((c.inspected? ev k).getD {}).scan := by
    rw [entryOf_handle hc hdrop]
    split
    · exact scan_recorded _
    · rfl
  rw [hins, getD_inspected?, FirewallApp.callsFor]
  cases c.dpiCall? ev with
  | none => rfl
  | some call =>
      by_cases hk : k = call.key
      · subst hk
        simp only [if_true, Option.toList_some, List.filter_cons, decide_true, List.filter_nil,
          List.map_cons, List.map_nil]
        exact scan_inspected ..
      · simp only [if_neg hk, Option.toList_some, List.filter_cons, List.filter_nil,
          decide_eq_false (Ne.symm hk), Bool.false_eq_true, if_false, List.map_nil]
        rfl

namespace World

/-- The calls of `_check_dpi` for a flow along a run, in order. -/
def dpiCalls (compile : ReCompile) (k : TrustKey) (w : World) (evs : List Event) : List DpiCall :=
  outputs (step compile) (fun w ev => w.ctl.callsFor k ev) w evs

/-- Those among them that find the flow unblocked. -/
def openDpiCalls (compile : ReCompile) (k : TrustKey) (w : World) (evs : List Event) :
    List DpiCall :=
  outputs (step compile) (fun w ev => w.ctl.openCallsFor k ev) w evs

/-- The event neither deletes the record of the flow nor changes the signatures. -/
def Leaves (compile : ReCompile) (k : TrustKey) (w : World) (ev : Event) : Prop :=
  ¬ w.ctl.Drops compile k ev ∧ (w.step compile ev).ctl.dpi = w.ctl.dpi

/-- A run that leaves the record alone takes it through the scan of all its calls, and the calls
that find the flow unblocked are the chunks that are heard. -/
theorem scan_run {compile : ReCompile} {k : TrustKey} {w : World} (hw : w.Sound)
    {evs : List Event} (h : Along (step compile) (Leaves compile k) w evs) :
    ((runFrom (step compile) w evs).ctl.entryOf k).scan =
        (w.ctl.entryOf k).scan.run MAX_BUFFER_BYTES w.ctl.dpi.test
          ((dpiCalls compile k w evs).map DpiCall.chunk) ∧
      (openDpiCalls compile k w evs).map DpiCall.chunk =
        (w.ctl.entryOf k).scan.heard MAX_BUFFER_BYTES w.ctl.dpi.test
          ((dpiCalls compile k w evs).map DpiCall.chunk) := by
  induction evs generalizing w with
  | nil => exact ⟨rfl, rfl⟩
  | cons ev evs ih =>
      obtain ⟨⟨hdrop, hdpi⟩, h⟩ := h
      obtain ⟨hscan, hheard⟩ := ih (sound_step hw ev) h
      have hstep : ((w.step compile ev).ctl.entryOf k).scan = _ :=
        scan_handle compile hw.keyed hdrop
      rw [hdpi, hstep] at hscan hheard
      have hcalls : dpiCalls compile k w (ev :: evs) =
          w.ctl.callsFor k ev ++ dpiCalls compile k (w.step compile ev) evs := rfl
      have hopen : openDpiCalls compile k w (ev :: evs) =
          w.ctl.openCallsFor k ev ++ openDpiCalls compile k (w.step compile ev) evs := rfl
      rw [runFrom_cons, hscan, hcalls, hopen, List.map_append, List.map_append, hheard,
        Scan.run_append, Scan.heard_append]
      refine ⟨rfl, congrArg (· ++ _) ?_⟩
      -- the one call of the event is heard when the flow is unblocked
      rw [FirewallApp.openCallsFor]
      rcases callsFor_cases w.ctl k ev with hnil | ⟨call, -, hone⟩
      · rw [hnil, ite_self]
        rfl
      · rw [hone, List.map_singleton, Scan.heard_singleton]
        by_cases hb : (w.ctl.entryOf k).blocked = true
        · rw [if_pos hb, if_pos (show (w.ctl.entryOf k).scan.hit = true from hb)]
          rfl
        · rw [if_neg hb, if_neg (show ¬ (w.ctl.entryOf k).scan.hit = true from hb)]
          rfl

end World

/-! ## Channels and endpoints -/

/-- The payloads of the calls an endpoint sent, one after the other. -/
def sentFrom (x : Endpoint) (calls : List DpiCall) : Bytes :=
  (calls.filter fun call => call.sender = x).flatMap DpiCall.payload

/-- A segment comes from one of the two endpoints of its flow. -/
theorem sender_mem_key (call : DpiCall) :
    call.sender = call.key.a ∨ call.sender = call.key.b := by
  have hkey : call.key = ⟨_, call.sender, _⟩ ∨ call.key = ⟨_, _, call.sender⟩ :=
    trustKey_endpoints ..
  rcases hkey with h | h
  · exact Or.inl (by rw [h])
  · exact Or.inr (by rw [h])

/-- The channels of a flow are the streams of its endpoints; a flow from an endpoint to itself uses
the first channel only. -/
theorem channel_chunks {k : TrustKey} {calls : List DpiCall} (h : ∀ call ∈ calls, call.key = k) :
    channel Side.a (calls.map DpiCall.chunk) = sentFrom k.a calls ∧
      channel Side.b (calls.map DpiCall.chunk) = if k.a = k.b then [] else sentFrom k.b calls := by
  induction calls with
  | nil => simp [sentFrom]
  | cons call calls ih =>
      obtain ⟨iha, ihb⟩ := ih fun call' hcall' => h call' (List.mem_cons_of_mem _ hcall')
      have hkey : call.key = k := h call List.mem_cons_self
      have hsplit : ∀ side, channel side ((call :: calls).map DpiCall.chunk) =
          (if call.side = side then call.payload else []) ++
            channel side (calls.map DpiCall.chunk) := by
        intro side
        rw [List.map_cons, ← List.singleton_append, channel_append, channel_singleton]
        rfl
      have hsent : ∀ x, sentFrom x (call :: calls) =
          (if call.sender = x then call.payload else []) ++ sentFrom x calls := by
        intro x
        by_cases hx : call.sender = x <;> simp [sentFrom, hx]
      have hside : call.side = if call.sender = k.a then Side.a else Side.b := by
        rw [DpiCall.side, hkey, TrustKey.side]
      have hmem := sender_mem_key call
      rw [hkey] at hmem
      rw [hsplit, hsplit, hsent, hsent, iha, ihb, hside]
      -- what comes from the first endpoint goes into the first buffer, even if both endpoints are
      -- one
      by_cases ha : call.sender = k.a
      · by_cases hab : k.a = k.b
        · simp [ha, hab]
        · simp [ha, hab]
      · have hb : call.sender = k.b := hmem.resolve_left ha
        have hab : k.a ≠ k.b := fun hab => ha (hb.trans hab.symm)
        simp [hb, hab, Ne.symm hab]

/-! ## Streams and signatures -/

/-- An enabled signature matches the beginning of a non-empty stream. -/
def DPIEngine.MatchesStream (dpi : DPIEngine) (stream : Bytes) : Prop :=
  stream ≠ [] ∧ ∃ p ∈ dpi.patterns, p.enabled = true ∧
    p.compiled (stream.take MAX_BUFFER_BYTES) = true

/-- Every enabled signature that matches some bytes matches them followed by anything. -/
def DPIEngine.ExtensionMonotone (dpi : DPIEngine) : Prop :=
  ∀ p ∈ dpi.patterns, p.enabled = true →
    ∀ b b' : Bytes, p.compiled b = true → p.compiled (b ++ b') = true

/-- The built-in patterns match a longer stream when they match its beginning. -/
theorem extensionMonotone_builtinEngine : builtinEngine.ExtensionMonotone := by
  intro p hp _ b b' hmatch
  have hcompiled : builtinCompile p.rawPattern = .ok p.compiled := by
    unfold builtinEngine at hp
    split at hp
    · rename_i dpi hinit
      exact DPIEngine.compile_of_init hinit hp
    · exact absurd hp List.not_mem_nil
  rw [builtinCompile, Except.ok.injEq] at hcompiled
  rw [← hcompiled] at hmatch ⊢
  split
  · rename_i htext
    rw [if_pos htext] at hmatch
    exact hasComment_append b b' hmatch
  · rename_i htext
    rw [if_neg htext] at hmatch
    exact hmatch

/-- A stream matches if its part within the cap does. -/
theorem test_take_iff {dpi : DPIEngine} {stream : Bytes} :
    dpi.test (stream.take MAX_BUFFER_BYTES) = true ↔ dpi.MatchesStream stream := by
  rw [DPIEngine.test, DPIEngine.inspect_isMatch_iff, DPIEngine.MatchesStream]
  refine and_congr_left fun _ => not_congr ?_
  rw [List.take_eq_nil_iff]
  exact or_iff_right (by decide)

/-- Such an engine finds in a longer buffer what it found in a shorter one. -/
theorem test_append {dpi : DPIEngine} (hext : dpi.ExtensionMonotone) (b b' : Bytes)
    (h : dpi.test b = true) : dpi.test (b ++ b') = true := by
  rw [DPIEngine.test, DPIEngine.inspect_isMatch_iff] at h ⊢
  obtain ⟨hb, p, hp, hen, hmatch⟩ := h
  exact ⟨fun hnil => hb (List.append_eq_nil_iff.mp hnil).1, p, hp, hen,
    hext p hp hen b b' hmatch⟩

/-- A stream of the flow matches: that of one of its endpoints. -/
def FlowMatches (dpi : DPIEngine) (k : TrustKey) (calls : List DpiCall) : Prop :=
  dpi.MatchesStream (sentFrom k.a calls) ∨ dpi.MatchesStream (sentFrom k.b calls)

/-- One of the two channels of a flow passes the test exactly when one of its streams matches. -/
theorem exists_test_iff {dpi : DPIEngine} {k : TrustKey} {calls : List DpiCall}
    (h : ∀ call ∈ calls, call.key = k) :
    (∃ side, dpi.test ((channel side (calls.map DpiCall.chunk)).take MAX_BUFFER_BYTES) = true) ↔
      FlowMatches dpi k calls := by
  obtain ⟨ha, hb⟩ := channel_chunks h
  have hsides : (∃ side, dpi.test ((channel side (calls.map DpiCall.chunk)).take
      MAX_BUFFER_BYTES) = true) ↔
      dpi.MatchesStream (sentFrom k.a calls) ∨
        dpi.MatchesStream (if k.a = k.b then [] else sentFrom k.b calls) := by
    rw [← test_take_iff, ← test_take_iff, ← ha, ← hb]
    constructor
    · rintro ⟨side, hside⟩
      cases side
      · exact Or.inl hside
      · exact Or.inr hside
    · rintro (hside | hside)
      · exact ⟨.a, hside⟩
      · exact ⟨.b, hside⟩
  rw [hsides, FlowMatches]
  by_cases hab : k.a = k.b
  -- a flow from an endpoint to itself has one stream, on its first side
  · rw [if_pos hab, hab]
    have hnil : ¬ dpi.MatchesStream [] := fun hm => hm.1 rfl
    tauto
  · rw [if_neg hab]

namespace World

/-- The calls of a flow have its key. -/
theorem key_of_mem_dpiCalls {compile : ReCompile} {k : TrustKey} (w : World) (evs : List Event) :
    ∀ call ∈ dpiCalls compile k w evs, call.key = k := by
  intro call hcall
  obtain ⟨w', ev, hmem⟩ := mem_outputs hcall
  simpa using (List.mem_filter.mp hmem).2

/-- So have those that find its record open. -/
theorem key_of_mem_openDpiCalls {compile : ReCompile} {k : TrustKey} (w : World)
    (evs : List Event) : ∀ call ∈ openDpiCalls compile k w evs, call.key = k := by
  intro call hcall
  obtain ⟨w', ev, hmem⟩ := mem_outputs hcall
  rw [FirewallApp.openCallsFor] at hmem
  split at hmem
  · exact absurd hmem List.not_mem_nil
  · simpa using (List.mem_filter.mp hmem).2

/-- The record of a flow that had none at the start of a run which leaves it alone. -/
theorem scan_run_of_absent {compile : ReCompile} {k : TrustKey} {w : World} (hw : w.Sound)
    (habsent : w.ctl.trustTable.get? k = none) {evs : List Event}
    (h : Along (step compile) (Leaves compile k) w evs) :
    ((runFrom (step compile) w evs).ctl.entryOf k).scan =
        Scan.start.run MAX_BUFFER_BYTES w.ctl.dpi.test
          ((dpiCalls compile k w evs).map DpiCall.chunk) ∧
      (openDpiCalls compile k w evs).map DpiCall.chunk =
        Scan.start.heard MAX_BUFFER_BYTES w.ctl.dpi.test
          ((dpiCalls compile k w evs).map DpiCall.chunk) := by
  have hstart : (w.ctl.entryOf k).scan = Scan.start := by
    rw [entryOf_of_get?_none habsent]
    exact Scan.ext (funext fun side => by cases side <;> rfl) rfl
  have hrun := scan_run hw h
  rwa [hstart] at hrun

/-- The flow is blocked exactly when one of its whole streams matches. -/
theorem blocked_iff_flowMatches {compile : ReCompile} {k : TrustKey} {w : World} (hw : w.Sound)
    (habsent : w.ctl.trustTable.get? k = none) (hext : w.ctl.dpi.ExtensionMonotone)
    {evs : List Event} (h : Along (step compile) (Leaves compile k) w evs) :
    ((runFrom (step compile) w evs).ctl.entryOf k).blocked = true ↔
      FlowMatches w.ctl.dpi k (dpiCalls compile k w evs) := by
  have hhit : ((Scan.start : Scan Side UInt8).run MAX_BUFFER_BYTES w.ctl.dpi.test
      ((dpiCalls compile k w evs).map DpiCall.chunk)).hit = true ↔ _ :=
    Scan.hit_iff_channel rfl (test_append hext) _
  rw [← (scan_run_of_absent hw habsent h).1, exists_test_iff (key_of_mem_dpiCalls w evs)] at hhit
  exact hhit

/-- What reaches the DPI stage for a flow are TCP segments. -/
theorem proto_of_flowMatches {compile : ReCompile} {k : TrustKey} {w : World} {evs : List Event}
    {dpi : DPIEngine} (h : FlowMatches dpi k (dpiCalls compile k w evs)) : k.proto = 6 := by
  cases hcalls : dpiCalls compile k w evs with
  | nil =>
      rw [hcalls] at h
      exact (h.elim (fun hm => hm.1 rfl) fun hm => hm.1 rfl).elim
  | cons call calls =>
      have hmem : call ∈ dpiCalls compile k w evs := by rw [hcalls]; exact List.mem_cons_self
      obtain ⟨w', ev, hfor⟩ := mem_outputs hmem
      obtain ⟨hcall, hkey⟩ := List.mem_filter.mp hfor
      have hkey : call.key = k := by simpa using hkey
      rw [← hkey]
      exact (flow?_of_dpiCall? (Option.mem_toList.mp hcall)).2

/-- Reassembly of a flow whose record is absent at first and then left alone: each buffer is the
beginning of what its endpoint sent while the flow was unblocked, and for signatures kept by
extension the flow is blocked exactly when one of its whole streams matches, whatever the cut
points. Neither the packet that completes a match nor a later one of the flow is sent out. -/
theorem dpi_reassembly (compile : ReCompile) (dpi : DPIEngine) (before evs : List Event)
    (k : TrustKey) (habsent : (run compile dpi before).ctl.trustTable.get? k = none)
    (hkeep : Along (step compile) (Leaves compile k) (run compile dpi before) evs) :
    let w := run compile dpi before
    let e := (runFrom (step compile) w evs).ctl.entryOf k
    let opened := openDpiCalls compile k w evs
    e.bufA = (sentFrom k.a opened).take MAX_BUFFER_BYTES ∧
    e.bufB = (if k.a = k.b then [] else (sentFrom k.b opened).take MAX_BUFFER_BYTES) ∧
    (w.ctl.dpi.ExtensionMonotone →
      (e.blocked = true ↔ FlowMatches w.ctl.dpi k (dpiCalls compile k w evs)) ∧
      ∀ n ev, evs[n]? = some ev → ev.flow? = some k →
        FlowMatches w.ctl.dpi k (dpiCalls compile k w (evs.take (n + 1))) →
        ∀ d, ∀ m ∈ (runFrom (step compile) w (evs.take n)).sends compile ev d, ¬ m.Outputs) := by
  intro w e opened
  have hw : w.Sound := sound_run compile dpi before
  obtain ⟨hscan, hheard⟩ := scan_run_of_absent hw habsent hkeep
  obtain ⟨ha, hb⟩ := channel_chunks (key_of_mem_openDpiCalls w evs)
  have hbuf : ∀ side, e.buf side =
      (channel side (opened.map DpiCall.chunk)).take MAX_BUFFER_BYTES := by
    intro side
    have hside : e.scan.buf side = _ := congrArg (fun s => s.buf side) hscan
    rw [Scan.buf_run, ← hheard] at hside
    exact hside
  refine ⟨(hbuf .a).trans (by rw [ha]), (hbuf .b).trans ?_, fun hext => ⟨?_, ?_⟩⟩
  · rw [hb]
    split
    · exact List.take_nil
    · rfl
  · exact blocked_iff_flowMatches hw habsent hext hkeep
  · intro n ev hev hk hmatch d m hm hout
    obtain ⟨hlt, hget⟩ := List.getElem?_eq_some_iff.mp hev
    have htake : evs.take (n + 1) = evs.take n ++ [ev] := by
      rw [List.take_add_one, hev]
      rfl
    have hsplit : evs = evs.take n ++ ev :: evs.drop (n + 1) := by
      rw [← hget, ← List.drop_eq_getElem_cons hlt, List.take_append_drop]
    rw [hsplit] at hkeep
    obtain ⟨hpre, ⟨hdrop, hdpi⟩, -⟩ := along_append.mp hkeep
    have hsound : (runFrom (step compile) w (evs.take n)).Sound :=
      runFrom_invariant Sound (fun _ ev hw => sound_step hw ev) hw _
    -- the record is blocked once the packet is through, and so the packet was not allowed
    have hblocked :
        ((runFrom (step compile) w (evs.take (n + 1))).ctl.entryOf k).blocked = true := by
      refine (blocked_iff_flowMatches hw habsent hext ?_).mpr hmatch
      rw [htake]
      exact along_append.mpr ⟨hpre, ⟨hdrop, hdpi⟩, trivial⟩
    rw [htake, runFrom_concat] at hblocked
    refine not_allowed_of_blocked hk (proto_of_flowMatches hmatch) ?_
      (allowed_of_sends hsound.keyed hm hout)
    exact (blocked_handle hsound.keyed hdrop).symm.trans hblocked

/-- A packet-in deletes no record and changes no signature. -/
theorem leaves_packetIn {compile : ReCompile} {w : World} (hw : w.Sound) (k : TrustKey) (d : ℕ)
    (now : ℚ) (msg : PacketIn) : Leaves compile k w (.packetIn d now msg) := by
  refine ⟨by rintro ⟨⟩, ?_⟩
  obtain ⟨c', ms, hact, hcore, -, -⟩ := step_spec compile hw.keyed (.packetIn d now msg)
  have hdpi : (w.step compile (.packetIn d now msg)).ctl.dpi = c'.dpi :=
    congrArg (fun c => c.dpi) hcore
  rw [hdpi]
  cases hact with
  | unheard | ignored => rfl
  | rejected | allowed => simp

/-- Host 1 sends host 2 a comment sequence in two segments, with an answer in between. -/
def splitComment : List Event :=
  [.packetIn 1 0 (packetInFrom 1 (tcpFrame 1 2 100 80 [0x2d])),
    .packetIn 1 0 (packetInFrom 2 (tcpFrame 2 1 80 100 [0x21])),
    .packetIn 1 0 (packetInFrom 1 (tcpFrame 1 2 100 80 [0x2d, 0x20]))]

/-- A comment sequence split over two segments is found at the second. -/
theorem dpi_reassembly_splitComment :
    let k : TrustKey := ⟨6, ("10.0.0.1", 100), ("10.0.0.2", 80)⟩
    let w := run builtinCompile builtinEngine [.handshake 1]
    ((runFrom (step builtinCompile) w splitComment).ctl.entryOf k).bufA = [0x2d, 0x2d, 0x20] ∧
      FlowMatches w.ctl.dpi k (dpiCalls builtinCompile k w splitComment) := by
  intro k w
  have hw : w.Sound := sound_run ..
  have hkeep : Along (step builtinCompile) (Leaves builtinCompile k) w splitComment :=
    ⟨leaves_packetIn hw k .., leaves_packetIn (sound_step hw _) k ..,
      leaves_packetIn (sound_step (sound_step hw _) _) k .., trivial⟩
  obtain ⟨hbufA, -, hmatch⟩ := dpi_reassembly builtinCompile builtinEngine [.handshake 1]
    splitComment k (by decide +kernel) hkeep
  refine ⟨hbufA.trans (by decide +kernel), (hmatch ?_).1.mp (by decide +kernel)⟩
  exact extensionMonotone_builtinEngine

end World

end SdnFirewall
