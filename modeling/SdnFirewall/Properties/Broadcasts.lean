import Mathlib.Data.List.DropRight
import SdnFirewall.Common.Accounts
import SdnFirewall.System.World

/-!
# What the dashboards are told

Every log call broadcasts its entry and then the counters. So the event log is the end of what has
been broadcast, and the counters of rejected packets that the dashboards show are never out of date.
No broadcast raises here; what a failing one leaves behind is the subject of `Properties.Logging`.
-/

namespace SdnFirewall

open Common OpenFlow Python

/-! ## Frames -/

/-- The frame of a broadcast. -/
def Effect.frame? : Effect → Option WsFrame
  | .broadcast frame => some frame
  | .sendMsg _ _ => none

/-- The entry a frame carries. -/
def WsFrame.entry? : WsFrame → Option LogEntry
  | .event entry => some entry
  | .stats _ => none

/-- The counters a frame carries. -/
def WsFrame.counters? : WsFrame → Option Stats
  | .stats counters => some counters
  | .event _ => none

/-- The frames among some outward actions. -/
def framesOf (os : List Effect) : List WsFrame := os.filterMap Effect.frame?

/-- The entries that some frames carry. -/
def eventsOf (frames : List WsFrame) : List LogEntry := frames.filterMap WsFrame.entry?

/-- The counters that a dashboard shows after some frames. -/
def shown? (frames : List WsFrame) : Option Stats := (frames.filterMap WsFrame.counters?).getLast?

/-- The frames of two parts, one after the other. -/
theorem framesOf_append (os os' : List Effect) :
    framesOf (os ++ os') = framesOf os ++ framesOf os' :=
  List.filterMap_append

/-- So are the entries among them. -/
theorem eventsOf_append (fs fs' : List WsFrame) :
    eventsOf (fs ++ fs') = eventsOf fs ++ eventsOf fs' :=
  List.filterMap_append

/-- What is shown in the end is from the later part, if that shows anything. -/
theorem shown?_append (fs fs' : List WsFrame) :
    shown? (fs ++ fs') = (shown? fs').or (shown? fs) := by
  rw [shown?, List.filterMap_append, List.getLast?_append]
  rfl

/-- The two frames of a log call. -/
def logFrames (p : LogEntry × Stats) : List WsFrame := [.event p.1, .stats p.2]

/-- The counters of rejected packets. -/
def Stats.rejections (s : Stats) : Stats :=
  { s with allowed := 0, total := 0, trustFlowsInstalled := 0 }

/-- The event log with one more entry, capped at 200 entries. -/
def pushLog (entries : List LogEntry) (entry : LogEntry) : List LogEntry :=
  if (entries ++ [entry]).length > 200 then (entries ++ [entry]).tail else entries ++ [entry]

/-- An entry that is logged comes last in the event log. -/
theorem eventLog_logged (c : FirewallApp) (entry : LogEntry) :
    (c.logged entry).eventLog = pushLog c.eventLog entry := rfl

/-- The log holds the last 200 entries of all. -/
theorem foldl_pushLog (entries : List LogEntry) :
    entries.foldl pushLog [] = entries.rtake 200 := by
  induction entries using List.reverseRec with
  | nil => rfl
  | append_singleton entries entry ih =>
      rw [List.foldl_append, ih, List.foldl_cons, List.foldl_nil, pushLog]
      simp only [List.rtake, List.length_append, List.length_drop, List.length_singleton]
      -- below the cap nothing is cut on either side; above it one more entry is
      by_cases hlen : entries.length < 200
      · have h0 : entries.length - 200 = 0 := by omega
        have h1 : entries.length + 1 - 200 = 0 := by omega
        rw [h0, h1, List.drop_zero, List.drop_zero, if_neg (by omega)]
      · have hsub : entries.length + 1 - 200 = entries.length - 200 + 1 := by omega
        rw [if_pos (by omega), hsub, List.drop_append_of_le_length (by omega),
          List.tail_append_of_ne_nil, List.tail_drop]
        -- at least 200 entries are kept, so a tail is taken of a list that is not empty
        intro hnil
        have := congrArg List.length hnil
        rw [List.length_drop, List.length_nil] at this
        omega

/-! ## The account -/

/-- The log and the rejection counters follow from what is broadcast, and what is broadcast comes
in pairs of an entry and the counters. -/
structure Published (c : FirewallApp) (os : List Effect) (c' : FirewallApp) : Prop where
  log : c'.eventLog = (eventsOf (framesOf os)).foldl pushLog c.eventLog
  shown : c'.stats.rejections = ((shown? (framesOf os)).getD c.stats).rejections
  paired : ∃ pairs : List (LogEntry × Stats), framesOf os = pairs.flatMap logFrames

/-- Nothing is broadcast, and neither the log nor a rejection counter is touched. -/
theorem published_of_silent {c c' : FirewallApp} {os : List Effect} (hos : framesOf os = [])
    (hlog : c'.eventLog = c.eventLog) (hstats : c'.stats.rejections = c.stats.rejections) :
    Published c os c' where
  log := by rw [hos]; exact hlog
  shown := by rw [hos]; exact hstats
  paired := ⟨[], hos⟩

/-- The account of what is published. -/
def publishing : Account FirewallApp Effect where
  rel := Published
  refl := fun _ => published_of_silent rfl rfl rfl
  trans := by
    rintro s s' s'' os os' ⟨hlog, hshown, pairs, hpaired⟩ ⟨hlog', hshown', pairs', hpaired'⟩
    refine ⟨?_, ?_, pairs ++ pairs', ?_⟩
    · rw [hlog', hlog, framesOf_append, eventsOf_append, List.foldl_append]
    · rw [hshown', framesOf_append, shown?_append]
      -- the later part shows the counters last, if it shows them at all
      cases shown? (framesOf os') with
      | some stats => rfl
      | none => exact hshown
    · rw [framesOf_append, hpaired, hpaired', List.flatMap_append]

/-- The call keeps the account of what is published. -/
abbrev Publishes {α : Type} (p : Fw α) : Prop := p.Keeps publishing

/-- A log call after an update of the counters. -/
theorem published_log {c c' : FirewallApp} (hlog : c'.eventLog = c.eventLog) (entry : LogEntry) :
    Published c (logOut c' entry) (c'.logged entry) where
  log := by rw [eventLog_logged, hlog]; rfl
  shown := rfl
  paired := ⟨[(entry, c'.stats)], rfl⟩

/-- A log call broadcasts its entry and the counters as they are then. -/
theorem log_publishes (level msg src dst extra : String) :
    Publishes (log level msg src dst extra) :=
  ⟨fun _ => published_log rfl _⟩

/-- A change that touches neither the log nor the counters of rejections keeps the account. -/
theorem modify_publishes {u : FirewallApp → FirewallApp}
    (hlog : ∀ c, (u c).eventLog = c.eventLog)
    (hstats : ∀ c, (u c).stats.rejections = c.stats.rejections) :
    Publishes (Prog.modify u : Fw Unit) :=
  Prog.keeps_modify fun c => published_of_silent rfl (hlog c) (hstats c)

/-- So does a message to a switch. -/
theorem sendMsg_publishes (datapath : Datapath) (msg : OFPMsg) :
    Publishes (sendMsg datapath msg) :=
  Prog.keeps_call fun _ => published_of_silent rfl rfl rfl

/-! ## The flushes -/

section Loops

variable {body : Datapath → Fw Unit} (hbody : ∀ dp, Publishes (body dp))

include hbody

/-- A loop over the switches keeps the account if its body does, from any round on. -/
theorem forDatapathsFrom_publishes (size i fuel : ℕ) :
    Publishes (forDatapathsFrom body size i fuel) := by
  -- by induction on the rounds that are left; before each the size of the dictionary is compared
  induction fuel generalizing i with
  | zero =>
      refine Prog.keeps_bind Prog.keeps_read fun c => ?_
      split
      · exact Prog.keeps_raise _
      · exact Prog.keeps_pure _
  | succ fuel ih =>
      refine Prog.keeps_bind Prog.keeps_read fun c => ?_
      dsimp only
      cases c.datapaths.values[i]? with
      -- there is no further switch, so the loop ends unless the dictionary has grown
      | none =>
          split
          · exact Prog.keeps_bind (Prog.keeps_raise _) fun _ => Prog.keeps_pure _
          · exact Prog.keeps_pure _
      | some dp =>
          have hnext := Prog.keeps_bind (hbody dp) fun _ => ih (i + 1)
          split
          · exact Prog.keeps_bind (Prog.keeps_raise _) fun _ => hnext
          · exact hnext

/-- So it does from its start. -/
theorem forDatapaths_publishes : Publishes (forDatapaths body) :=
  Prog.keeps_bind Prog.keeps_read fun _ => forDatapathsFrom_publishes hbody _ _ _

end Loops

/-- Dropping records keeps the account. -/
theorem dropTrust_publishes (selected : TrustKey → Bool) :
    Publishes (Prog.modify (·.dropTrust selected) : Fw Unit) :=
  modify_publishes (fun _ => rfl) fun _ => rfl

/-- The flush of an address logs once and drops records. -/
theorem flushFlowsForIp_publishes (ip : String) : Publishes (flushFlowsForIp ip) := by
  refine Prog.keeps_bind Prog.keeps_read fun c => ?_
  refine Prog.keeps_bind (log_publishes _ _ _ _ _) fun _ => ?_
  refine Prog.keeps_bind (forDatapaths_publishes fun dp => ?_) fun _ => dropTrust_publishes _
  exact Prog.keeps_bind (sendMsg_publishes _ _) fun _ => sendMsg_publishes _ _

/-- So does the flush of a port. -/
theorem flushFlowsForPort_publishes (port protoNum : ℕ) :
    Publishes (flushFlowsForPort port protoNum) := by
  refine Prog.keeps_bind Prog.keeps_read fun c => ?_
  refine Prog.keeps_bind (log_publishes _ _ _ _ _) fun _ => ?_
  cases dstPortMatch? port protoNum with
  | some m =>
      refine Prog.keeps_bind (forDatapaths_publishes fun dp => ?_) fun _ => dropTrust_publishes _
      exact sendMsg_publishes _ _
  -- another protocol: the first switch ends the call, so records are dropped only without any
  | none =>
      refine Prog.keeps_bind Prog.keeps_read fun c => ?_
      split
      · exact dropTrust_publishes _
      · exact Prog.keeps_pure _

/-- And the flush of all flows, which logs once the table is cleared. -/
theorem flushAllTrustFlows_publishes : Publishes flushAllTrustFlows := by
  refine Prog.keeps_bind (forDatapaths_publishes fun dp => ?_) fun _ => ?_
  · exact Prog.keeps_bind (sendMsg_publishes _ _) fun _ => sendMsg_publishes _ _
  refine Prog.keeps_bind Prog.keeps_read fun c => ?_
  refine Prog.keeps_bind (modify_publishes ?_ ?_) fun _ => log_publishes _ _ _ _ _
  · exact fun _ => rfl
  · exact fun _ => rfl

/-! ## The packet-in handler -/

/-- Looking a record up, or creating it, publishes nothing. -/
theorem getOrCreateFlowEntry_publishes (key : TrustKey) :
    Publishes (getOrCreateFlowEntry key) := by
  refine Prog.keeps_bind Prog.keeps_read fun c => ?_
  cases c.trustTable.get? key with
  | some entry => exact Prog.keeps_pure _
  | none =>
      refine Prog.keeps_bind (modify_publishes ?_ ?_) fun _ => Prog.keeps_pure _
      · exact fun _ => rfl
      · exact fun _ => rfl

/-- Changing a record leaves the log alone. -/
theorem eventLog_updateEntry (c : FirewallApp) (ref : TrustRef) (f : TrustEntry → TrustEntry) :
    (c.updateEntry ref f).eventLog = c.eventLog := by
  unfold FirewallApp.updateEntry
  split
  · cases c.trustTable.get? ref.key <;> rfl
  · rfl

/-- And the counters. -/
theorem stats_updateEntry (c : FirewallApp) (ref : TrustRef) (f : TrustEntry → TrustEntry) :
    (c.updateEntry ref f).stats = c.stats := by
  unfold FirewallApp.updateEntry
  split
  · cases c.trustTable.get? ref.key <;> rfl
  · rfl

/-- So a changed record keeps the account. -/
theorem updateEntry_publishes (ref : TrustRef) (f : TrustEntry → TrustEntry) :
    Publishes (updateEntry ref f) :=
  modify_publishes (fun _ => eventLog_updateEntry _ ref f)
    fun c => congrArg Stats.rejections (stats_updateEntry c ref f)

/-- A counter may change without notice if the next thing is a log call. -/
theorem bump_log_publishes {α : Type} (key : StatKey) (level msg src dst extra : String) (a : α) :
    Publishes (do
      Prog.modify (·.bump key)
      log level msg src dst extra
      pure a : Fw α) := by
  refine ⟨fun c => ?_⟩
  -- the frame of counters is built after the counter has changed
  have hlog : (c.bump key).eventLog = c.eventLog := rfl
  exact published_log hlog ⟨level, msg, src, dst, extra⟩

/-- Inspection counts a blocked flow right before it logs it. -/
theorem checkDpi_publishes (ipPkt : IPv4) (tcpPkt : Tcp) (payload : Bytes) :
    Publishes (checkDpi ipPkt tcpPkt payload) := by
  refine Prog.keeps_bind (getOrCreateFlowEntry_publishes _) fun found => ?_
  obtain ⟨ref, entry⟩ := found
  dsimp only
  split
  -- a flow that is blocked already, or a segment without payload: nothing is counted or logged
  · exact Prog.keeps_pure _
  split
  · exact Prog.keeps_pure _
  refine Prog.keeps_bind (updateEntry_publishes _ _) fun _ => ?_
  refine Prog.keeps_bind Prog.keeps_read fun c => ?_
  split
  -- a signature matched: the record is marked first, then counted and logged
  · exact Prog.keeps_bind (updateEntry_publishes _ _) fun _ => bump_log_publishes _ _ _ _ _ _ _
  · exact Prog.keeps_pure _

/-- A rejection is counted before it is logged, so the counters broadcast have it. -/
theorem countAndLog_publishes (result : CheckResult) (level msg src dst extra : String) :
    Publishes (countResult result >>= fun _ => log level msg src dst extra) := by
  refine ⟨fun c => ?_⟩
  unfold countResult
  cases result.statKey with
  -- an allowed packet has no counter of rejections
  | none => exact (log_publishes level msg src dst extra).of_run c
  | some key =>
      have hlog : (c.bump key).eventLog = c.eventLog := rfl
      exact published_log hlog ⟨level, msg, src, dst, extra⟩

/-- Every way to account for a rejection ends with its log call. -/
theorem applyResult_publishes (result : CheckResult) (src dst proto : String) (port : ℕ) :
    Publishes (applyResult result src dst proto port) := by
  unfold applyResult
  split
  · exact Prog.keeps_pure _
  · exact countAndLog_publishes _ _ _ _ _ _

/-- Finding out the blocked port changes nothing. -/
theorem portBlockArgs_publishes (pkt : Packet) (ipPkt : IPv4) :
    Publishes (portBlockArgs pkt ipPkt) := by
  unfold portBlockArgs
  split
  · exact Prog.keeps_bind (Prog.keeps_orRaise _ _) fun _ => Prog.keeps_pure _
  · split
    · exact Prog.keeps_bind (Prog.keeps_orRaise _ _) fun _ => Prog.keeps_pure _
    · exact Prog.keeps_pure _

/-- The rate check changes the clock of the source and sends a drop entry. -/
theorem checkIpRateLimit_publishes (datapath : Datapath) (now : ℚ) (ip : String) :
    Publishes (checkIpRateLimit datapath now ip) := by
  refine Prog.keeps_bind Prog.keeps_read fun c => ?_
  refine Prog.keeps_bind (modify_publishes (fun _ => rfl) fun _ => rfl) fun _ => ?_
  split
  -- over the limit the arrival is not kept, and the drop entry is sent
  · exact Prog.keeps_bind (sendMsg_publishes _ _) fun _ => Prog.keeps_pure _
  · refine Prog.keeps_bind (modify_publishes ?_ ?_) fun _ => Prog.keeps_pure _
    · exact fun _ => rfl
    · exact fun _ => rfl

/-- The address check only reads. -/
theorem checkIpBlock_publishes (ip : String) : Publishes (checkIpBlock ip) := by
  refine Prog.keeps_bind Prog.keeps_read fun c => ?_
  split
  · exact Prog.keeps_pure _
  split
  · exact Prog.keeps_pure _
  · exact Prog.keeps_pure _

/-- So does the port check. -/
theorem checkPortBlock_publishes (protoNum dstPort : ℕ) :
    Publishes (checkPortBlock protoNum dstPort) := by
  refine Prog.keeps_bind Prog.keeps_read fun c => ?_
  split
  · exact Prog.keeps_pure _
  · exact Prog.keeps_pure _

/-- The check of ARP claims may bind an address, and nothing else. -/
theorem checkArpSpoof_publishes (datapath : Datapath) (srcMac ipSrc : String) :
    Publishes (checkArpSpoof datapath srcMac ipSrc) := by
  refine Prog.keeps_bind Prog.keeps_read fun c => ?_
  cases c.arpTable.get? ipSrc with
  -- the first claim of an address binds it
  | none =>
      refine Prog.keeps_bind (modify_publishes ?_ ?_) fun _ => Prog.keeps_pure _
      · exact fun _ => rfl
      · exact fun _ => rfl
  | some mac =>
      dsimp only
      split
      · exact Prog.keeps_bind (sendMsg_publishes _ _) fun _ => Prog.keeps_pure _
      · exact Prog.keeps_pure _

/-- Checks in sequence keep the account if each of them does. -/
theorem runChecks_publishes {checks : List (Fw CheckResult)}
    (h : ∀ check ∈ checks, Publishes check) : Publishes (runChecks checks) := by
  induction checks with
  | nil => exact Prog.keeps_pure _
  | cons check checks ih =>
      refine Prog.keeps_bind (h check List.mem_cons_self) fun result => ?_
      split
      · exact Prog.keeps_pure _
      · exact ih fun check hmem => h check (List.mem_cons_of_mem _ hmem)

/-- A TCP segment is accounted for where it is inspected. -/
theorem tcpPacketHandler_publishes (tcpPkt : Option Tcp) (ipPkt : IPv4) (rawFrame : Bytes) :
    Publishes (tcpPacketHandler tcpPkt ipPkt rawFrame) := by
  refine Prog.keeps_bind (Prog.keeps_orRaise _ _) fun tcpPkt => runChecks_publishes ?_
  simp only [List.forall_mem_cons, List.not_mem_nil, false_implies, implies_true, and_true]
  exact ⟨checkPortBlock_publishes _ _, Prog.keeps_pure _, checkDpi_publishes _ _ _⟩

/-- So are the packets of all protocols. -/
theorem protocolHandler_publishes (pkt : Packet) (ipPkt : IPv4) (data : Bytes) :
    Publishes (protocolHandler pkt ipPkt data) := by
  unfold protocolHandler
  split
  · exact Prog.keeps_pure _
  split
  · exact tcpPacketHandler_publishes _ _ _
  split
  · exact Prog.keeps_bind (Prog.keeps_orRaise _ _) fun _ => checkPortBlock_publishes _ _
  · exact Prog.keeps_pure _

/-- And those of IPv4 from the source checks on. -/
theorem ipv4PacketHandler_publishes (datapath : Datapath) (now : ℚ) (data : Bytes)
    (ipPkt : Option IPv4) : Publishes (ipv4PacketHandler datapath now data ipPkt) := by
  refine Prog.keeps_bind (Prog.keeps_orRaise _ _) fun ipPkt => ?_
  refine Prog.keeps_bind (runChecks_publishes ?_) fun result => ?_
  · simp only [List.forall_mem_cons, List.not_mem_nil, false_implies, implies_true, and_true]
    exact ⟨checkIpBlock_publishes _, checkIpRateLimit_publishes _ _ _⟩
  split
  · exact Prog.keeps_pure _
  · exact protocolHandler_publishes _ _ _

/-- The filtering area keeps the account. -/
theorem filterArea_publishes (datapath : Datapath) (now : ℚ) (data : Bytes) (pkt : Packet)
    (ethPkt : Ethernet) : Publishes (filterArea datapath now data pkt ethPkt) := by
  unfold filterArea
  split
  · exact Prog.keeps_bind (ipv4PacketHandler_publishes _ _ _ _) fun _ => Prog.keeps_pure _
  split
  · refine Prog.keeps_bind ?_ fun _ => Prog.keeps_pure _
    exact Prog.keeps_bind (Prog.keeps_orRaise _ _) fun _ => checkArpSpoof_publishes _ _ _
  · exact Prog.keeps_pure _

/-- A rejected packet is counted and logged. -/
theorem rejectPacket_publishes (pkt : Packet) (ethPkt : Ethernet) (result : CheckResult) :
    Publishes (rejectPacket pkt ethPkt result) := by
  unfold rejectPacket
  split
  · exact applyResult_publishes _ _ _ _ _
  · refine Prog.keeps_bind (Prog.keeps_orRaise _ _) fun ipPkt => ?_
    split
    · exact Prog.keeps_bind (portBlockArgs_publishes _ _) fun _ => applyResult_publishes _ _ _ _ _
    · exact applyResult_publishes _ _ _ _ _

/-- Installed trust is logged, and counted as no rejection. -/
theorem installTrustFlow_publishes (datapath : Datapath) (ipPkt : IPv4) (l4Pkt : L4)
    (inPort outPort : ℕ) : Publishes (installTrustFlow datapath ipPkt l4Pkt inPort outPort) := by
  unfold installTrustFlow
  dsimp only
  split
  · refine Prog.keeps_bind (sendMsg_publishes _ _) fun _ => ?_
    refine Prog.keeps_bind (sendMsg_publishes _ _) fun _ => ?_
    exact Prog.keeps_bind (log_publishes _ _ _ _ _) fun _ => Prog.keeps_pure _
  · exact Prog.keeps_pure _

/-- Counting a packet does no more than that. -/
theorem recordTrust_publishes (datapath : Datapath) (ipPkt : IPv4) (l4Pkt : L4)
    (inPort outPort : ℕ) : Publishes (recordTrust datapath ipPkt l4Pkt inPort outPort) := by
  unfold recordTrust
  split
  swap
  · exact Prog.keeps_pure _
  refine Prog.keeps_bind (getOrCreateFlowEntry_publishes _) fun found => ?_
  obtain ⟨ref, entry⟩ := found
  dsimp only
  split
  · exact Prog.keeps_pure _
  refine Prog.keeps_bind (updateEntry_publishes _ _) fun _ => ?_
  split
  · exact Prog.keeps_pure _
  -- the threshold is reached
  refine Prog.keeps_bind (installTrustFlow_publishes _ _ _ _ _) fun done => ?_
  split
  · refine Prog.keeps_bind (updateEntry_publishes _ _) fun _ => modify_publishes ?_ ?_
    · exact fun _ => rfl
    · exact fun _ => rfl
  · exact Prog.keeps_pure _

/-- Sending out keeps the account. -/
theorem sendOut_publishes (datapath : Datapath) (msg : PacketIn) (pkt : Packet)
    (ethPkt : Ethernet) (outPort : ℕ) : Publishes (sendOut datapath msg pkt ethPkt outPort) := by
  refine Prog.keeps_bind (sendMsg_publishes _ _) fun _ => ?_
  split
  swap
  · exact Prog.keeps_pure _
  cases pkt.ipv4 with
  | none => exact Prog.keeps_pure _
  | some ipPkt =>
      dsimp only
      cases l4Of pkt ipPkt with
      | none => exact Prog.keeps_pure _
      | some l4Pkt => exact recordTrust_publishes _ _ _ _ _

/-- So does forwarding, as learning is not logged. -/
theorem forwardPacket_publishes (datapath : Datapath) (msg : PacketIn) (pkt : Packet)
    (ethPkt : Ethernet) : Publishes (forwardPacket datapath msg pkt ethPkt) := by
  refine Prog.keeps_bind (modify_publishes (fun _ => rfl) fun _ => rfl) fun _ => ?_
  refine Prog.keeps_bind Prog.keeps_read fun c => ?_
  dsimp only
  split
  -- the station is known: with a buffered packet the learned entry does without a packet-out
  · split
    · exact sendMsg_publishes _ _
    · exact Prog.keeps_bind (sendMsg_publishes _ _) fun _ => sendOut_publishes _ _ _ _ _
  · exact sendOut_publishes _ _ _ _ _

/-- Whatever the verdict, the account is kept. -/
theorem outcomeArea_publishes (datapath : Datapath) (msg : PacketIn) (pkt : Packet)
    (ethPkt : Ethernet) (result : CheckResult) :
    Publishes (outcomeArea datapath msg pkt ethPkt result) := by
  refine Prog.keeps_bind (modify_publishes (fun _ => rfl) fun _ => rfl) fun _ => ?_
  refine Prog.keeps_bind (modify_publishes (fun _ => rfl) fun _ => rfl) fun _ => ?_
  split
  · exact Prog.keeps_pure _
  split
  · exact rejectPacket_publishes _ _ _
  · exact forwardPacket_publishes _ _ _ _

/-- So it is by the handler as a whole, however far it gets. -/
theorem packetInHandler_publishes (datapath : Datapath) (now : ℚ) (msg : PacketIn) :
    Publishes (packetInHandler datapath now msg) := by
  unfold packetInHandler
  split
  · exact Prog.keeps_pure _
  split
  · exact Prog.keeps_pure _
  refine Prog.keeps_bind (Prog.keeps_orRaise _ _) fun ethPkt => ?_
  refine Prog.keeps_bind (filterArea_publishes _ _ _ _ _) fun result => ?_
  cases result with
  | none => exact Prog.keeps_pure _
  | some result => exact outcomeArea_publishes _ _ _ _ _

/-- The handshake neither logs nor counts anything. -/
theorem switchHandshakeHandler_publishes (datapath : Datapath) :
    Publishes (switchHandshakeHandler datapath) :=
  ⟨fun _ => published_of_silent rfl rfl rfl⟩

/-! ## The REST handlers -/

/-- Answering with an error, or raising it again, publishes nothing. -/
theorem answerValueError_publishes (status : ℕ) (e : Exc) :
    Publishes (answerValueError status e) := by
  cases e with
  | valueError msg => exact Prog.keeps_pure _
  | _ => exact Prog.keeps_raise _

/-- Blocking an address publishes what its flush and its log call do. -/
theorem addBlockedIp_publishes (ip : String) : Publishes (addBlockedIp ip) := by
  unfold addBlockedIp
  split
  · exact Prog.keeps_pure _
  refine Prog.keeps_bind (modify_publishes (fun _ => rfl) fun _ => rfl) fun _ => ?_
  refine Prog.keeps_bind (flushFlowsForIp_publishes ip) fun _ => ?_
  refine Prog.keeps_bind (log_publishes _ _ _ _ _) fun _ => ?_
  exact Prog.keeps_bind Prog.keeps_read fun _ => Prog.keeps_pure _

/-- Withdrawing it changes the rules and logs. -/
theorem delBlockedIp_publishes (ip : String) : Publishes (delBlockedIp ip) := by
  refine Prog.keeps_bind Prog.keeps_read fun c => ?_
  split
  · exact Prog.keeps_pure _
  split
  · exact Prog.keeps_pure _
  refine Prog.keeps_bind (modify_publishes (fun _ => rfl) fun _ => rfl) fun _ => ?_
  refine Prog.keeps_bind (log_publishes _ _ _ _ _) fun _ => ?_
  exact Prog.keeps_bind Prog.keeps_read fun _ => Prog.keeps_pure _

/-- Blocking a port publishes what its flush and its log call do. -/
theorem addBlockedPort_publishes (port proto : String) :
    Publishes (addBlockedPort port proto) := by
  unfold addBlockedPort
  cases portRule port proto with
  | error response => exact Prog.keeps_pure _
  | ok rule =>
      refine Prog.keeps_bind (modify_publishes (fun _ => rfl) fun _ => rfl) fun _ => ?_
      refine Prog.keeps_bind (flushFlowsForPort_publishes _ _) fun _ => ?_
      refine Prog.keeps_bind (log_publishes _ _ _ _ _) fun _ => ?_
      exact Prog.keeps_bind Prog.keeps_read fun _ => Prog.keeps_pure _

/-- Withdrawing it changes the rules and logs. -/
theorem delBlockedPort_publishes (port proto : String) :
    Publishes (delBlockedPort port proto) := by
  unfold delBlockedPort
  cases portRule port proto with
  | error response => exact Prog.keeps_pure _
  | ok rule =>
      refine Prog.keeps_bind (modify_publishes (fun _ => rfl) fun _ => rfl) fun _ => ?_
      refine Prog.keeps_bind (log_publishes _ _ _ _ _) fun _ => ?_
      exact Prog.keeps_bind Prog.keeps_read fun _ => Prog.keeps_pure _

/-- A change of the rate is logged; a body that does not convert is not. -/
theorem setRateLimit_publishes (body : Except Exc Json) : Publishes (setRateLimit body) := by
  refine Prog.keeps_bind (Prog.keeps_ofExcept _) fun body => ?_
  -- the limit is converted and checked, set, and only then the window
  refine Prog.keeps_bind Prog.keeps_read fun c => ?_
  refine Prog.keeps_bind (Prog.keeps_ofExcept _) fun limit => ?_
  refine Prog.keeps_bind (Prog.keeps_ofExcept _) fun limit => ?_
  refine Prog.keeps_bind (modify_publishes (fun _ => rfl) fun _ => rfl) fun _ => ?_
  refine Prog.keeps_bind Prog.keeps_read fun c => ?_
  refine Prog.keeps_bind (Prog.keeps_ofExcept _) fun window => ?_
  refine Prog.keeps_bind (Prog.keeps_ofExcept _) fun window => ?_
  refine Prog.keeps_bind (modify_publishes (fun _ => rfl) fun _ => rfl) fun _ => ?_
  exact Prog.keeps_bind (log_publishes _ _ _ _ _) fun _ => Prog.keeps_pure _

/-- The engine neither logs nor counts. -/
theorem onDpi_publishes {α : Type} (p : Prog DPIEngine Empty Exc α) : Publishes (onDpi p) := by
  refine ⟨fun c => ?_⟩
  rw [run_onDpi]
  exact published_of_silent rfl rfl rfl

/-- A new pattern is logged after the flush. -/
theorem addPatternAndFlush_publishes (compile : ReCompile) (body : Json) :
    Publishes (addPatternAndFlush compile body) := by
  refine Prog.keeps_bind (Prog.keeps_ofExcept _) fun name => ?_
  refine Prog.keeps_bind (Prog.keeps_ofExcept _) fun rawPattern => ?_
  refine Prog.keeps_bind (Prog.keeps_ofExcept _) fun description => ?_
  refine Prog.keeps_bind (onDpi_publishes _) fun pattern => ?_
  refine Prog.keeps_bind flushAllTrustFlows_publishes fun _ => ?_
  exact Prog.keeps_bind (log_publishes _ _ _ _ _) fun _ => Prog.keeps_pure _

/-- Removing a pattern changes the engine only. -/
theorem tryRemovePattern_publishes (patternName : String) :
    Publishes (tryRemovePattern patternName) := by
  refine Prog.keeps_tryCatch ?_ fun e => ?_
  · exact Prog.keeps_bind (onDpi_publishes _) fun _ => Prog.keeps_pure _
  · exact Prog.keeps_bind (answerValueError_publishes 403 e) fun _ => Prog.keeps_pure _

/-- A removed pattern is logged. -/
theorem delDpiPattern_publishes (patternName : String) :
    Publishes (delDpiPattern patternName) := by
  refine Prog.keeps_bind (tryRemovePattern_publishes patternName) fun removed => ?_
  split
  -- the engine refused, or knew no such pattern: nothing is logged
  · exact Prog.keeps_pure _
  split
  · exact Prog.keeps_pure _
  · exact Prog.keeps_bind (log_publishes _ _ _ _ _) fun _ => Prog.keeps_pure _

/-- Every request keeps the account. -/
theorem serve_publishes (compile : ReCompile) (req : Request) :
    Publishes (serve compile req) := by
  cases req with
  | addBlockedIp ip => exact addBlockedIp_publishes ip
  | delBlockedIp ip => exact delBlockedIp_publishes ip
  | addBlockedPort port proto => exact addBlockedPort_publishes port proto
  | delBlockedPort port proto => exact delBlockedPort_publishes port proto
  | setRateLimit body => exact setRateLimit_publishes body
  | delDpiPattern patternName => exact delDpiPattern_publishes patternName
  | addDpiPattern body =>
      cases body with
      | ok body =>
          exact Prog.keeps_tryCatch (addPatternAndFlush_publishes compile body)
            fun e => answerValueError_publishes 400 e
      | error e =>
          cases e with
          | valueError msg => exact Prog.keeps_pure _
          | _ => exact Prog.keeps_raise _

/-! ## Runs -/

/-- The entries the route `get_log` answers with. -/
def FirewallApp.getLog (c : FirewallApp) : List LogEntry := c.eventLog.rtake 100

/-- The entries the remote call `get_log` answers with. -/
def FirewallApp.getLogRpc (c : FirewallApp) : List LogEntry := c.eventLog.rtake 50

/-- The end of an end is the end. -/
theorem rtake_rtake {α : Type} (l : List α) {m n : ℕ} (h : m ≤ n) :
    (l.rtake n).rtake m = l.rtake m := by
  simp only [List.rtake, List.drop_drop, List.length_drop]
  congr 1
  omega

/-- Every event keeps the account, whichever handler it goes to. -/
theorem handle_published (compile : ReCompile) (c : FirewallApp) (ev : Event) :
    Published c (c.handle compile ev).2 (c.handle compile ev).1 := by
  cases ev with
  | handshake d => exact (switchHandshakeHandler_publishes ⟨d⟩).of_run c
  | rest req => exact (serve_publishes compile req).of_run c
  | expire d e => exact publishing.refl c
  | packetIn d now msg =>
      rw [FirewallApp.handle]
      -- a packet-in is dispatched only once the handshake of its switch is through
      split
      · exact (packetInHandler_publishes ⟨d⟩ now msg).of_run c
      · exact publishing.refl c

namespace World

/-- The frames a dashboard receives that is connected all along. -/
def frames (compile : ReCompile) (dpi : DPIEngine) (evs : List Event) : List WsFrame :=
  framesOf (outputs (step compile) (fun w ev => (w.ctl.handle compile ev).2) (init dpi) evs)

/-- The account of what is published, kept by the controller of the system. -/
def publishing : Account World Effect where
  rel := fun w os w' => Published w.ctl os w'.ctl
  refl := fun w => SdnFirewall.publishing.refl w.ctl
  trans := SdnFirewall.publishing.trans

/-- A dashboard that has been connected all along has been told everything, as long as no broadcast
raises: in every run of handlers that go through, the frames come in pairs of an entry and the
counters, the log the controller answers with, over either interface, is the end of the entries
broadcast, and no counter of rejected packets differs from the last one broadcast. -/
theorem frames_run (compile : ReCompile) (dpi : DPIEngine) (evs : List Event) :
    (∃ pairs : List (LogEntry × Stats), frames compile dpi evs = pairs.flatMap logFrames) ∧
      (run compile dpi evs).ctl.getLog = (eventsOf (frames compile dpi evs)).rtake 100 ∧
      (run compile dpi evs).ctl.getLogRpc = (eventsOf (frames compile dpi evs)).rtake 50 ∧
      (run compile dpi evs).ctl.stats.rejections =
        ((shown? (frames compile dpi evs)).getD {}).rejections := by
  have hstep (w : World) (ev : Event) :
      publishing.rel w (w.ctl.handle compile ev).2 (step compile w ev) :=
    handle_published compile w.ctl ev
  have hpub := publishing.rel_run hstep (init dpi) evs
  -- the log is cut to 200 entries, which is more than either answer has
  have hlog : (run compile dpi evs).ctl.eventLog =
      (eventsOf (frames compile dpi evs)).rtake 200 := by
    rw [← foldl_pushLog]
    exact hpub.log
  refine ⟨hpub.paired, ?_, ?_, hpub.shown⟩
  · rw [FirewallApp.getLog, hlog, rtake_rtake _ (by omega)]
  · rw [FirewallApp.getLogRpc, hlog, rtake_rtake _ (by omega)]

end World

end SdnFirewall
