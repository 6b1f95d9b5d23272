import SdnFirewall.Controller.Flush

/-!
# Trust records

The table of flows, read and written through references as the handlers hold them: the two stages
that touch it are the DPI check and the recording of trust. Each has a closed form for one
undisturbed run, in which a record passes through a pure function.
-/

namespace SdnFirewall

open Common OpenFlow Python

/-- Number of clean packets that earn a flow its hardware entries. -/
def TRUST_K : ℕ := 5

def TRUST_FLOW_PRIORITY : ℕ := 400
def TRUST_FLOW_IDLE_TIMEOUT : ℕ := 60
def TRUST_FLOW_HARD_TIMEOUT : ℕ := 300

/-- The ports of a segment or datagram. -/
structure L4 where
  srcPort : ℕ
  dstPort : ℕ
deriving DecidableEq

def Tcp.l4 (tcp : Tcp) : L4 := ⟨tcp.srcPort, tcp.dstPort⟩

def Udp.l4 (udp : Udp) : L4 := ⟨udp.srcPort, udp.dstPort⟩

/-- The key of the flow a packet belongs to. -/
def flowKeyOf (ipPkt : IPv4) (l4Pkt : L4) : TrustKey :=
  trustKey ipPkt.proto ipPkt.src l4Pkt.srcPort ipPkt.dst l4Pkt.dstPort

/-! ## The two directions of a record -/

/-- The endpoint a packet was sent from, as the record names it. -/
inductive Side where
  | a
  | b
deriving DecidableEq

/-- The direction test of the DPI check. -/
def TrustKey.side (key : TrustKey) (sender : Endpoint) : Side :=
  if sender = key.a then .a else .b

def TrustEntry.buf (e : TrustEntry) : Side → Bytes
  | .a => e.bufA
  | .b => e.bufB

def TrustEntry.setBuf (e : TrustEntry) (s : Side) (buf : Bytes) : TrustEntry :=
  match s with
  | .a => { e with bufA := buf }
  | .b => { e with bufB := buf }

/-! ## References to records -/

/-- A reference to a record: it outlives the record's removal from the table, but then no longer
reaches the table. -/
structure TrustRef where
  key : TrustKey
  generation : ℕ

/-- `_get_or_create_flow_entry`: a reference to the record of a key, and its present value. -/
def getOrCreateFlowEntry (key : TrustKey) : Fw (TrustRef × TrustEntry) := do
  let c ← Prog.read
  match c.trustTable.get? key with
  | some entry => pure (⟨key, c.generation key⟩, entry)
  | none =>
    Prog.modify (·.setTrust key {})
    pure (⟨key, c.generation key⟩, {})

/-- The effect of writing to a record through a reference. -/
def FirewallApp.updateEntry (c : FirewallApp) (ref : TrustRef) (f : TrustEntry → TrustEntry) :
    FirewallApp :=
  if c.generation ref.key = ref.generation then
    match c.trustTable.get? ref.key with
    | some entry => c.setTrust ref.key (f entry)
    | none => c
  else c

/-- Write to a record through a reference. -/
def updateEntry (ref : TrustRef) (f : TrustEntry → TrustEntry) : Fw Unit :=
  Prog.modify (·.updateEntry ref f)

/-! ## DPI -/

/-- `_check_dpi`. The buffer takes at most as many bytes as fit under the cap. -/
def checkDpi (ipPkt : IPv4) (tcpPkt : Tcp) (payload : Bytes) : Fw CheckResult := do
  let key := flowKeyOf ipPkt tcpPkt.l4
  let (ref, entry) ← getOrCreateFlowEntry key
  if entry.blocked then pure .dpiBlocked
  else if payload.isEmpty then pure .allowed
  else
    let side := key.side (ipPkt.src, tcpPkt.srcPort)
    let remaining := MAX_BUFFER_BYTES - (entry.buf side).length
    let buf := entry.buf side ++ payload.take remaining
    updateEntry ref (·.setBuf side buf)
    let c ← Prog.read
    let verdict := c.dpi.inspect buf
    if verdict.isMatch then
      updateEntry ref fun e => { e with blocked := true }
      Prog.modify (·.bump .dpiBlocked)
      let name := verdict.patternName.getD "None"
      log "block" ("DPI blocked [" ++ name ++ "] from " ++ ipPkt.src) ipPkt.src ipPkt.dst
        ("DPI: " ++ name)
      pure .dpiBlocked
    else pure .allowed

/-! ## Trust -/

/-- The exact 5-tuple match of one direction; only TCP and UDP have one. -/
def trustMatch (protoNum : ℕ) (src dst : Endpoint) : OFPMatch :=
  if protoNum = 6 then
    { ethType := some ETH_TYPE_IP, ipProto := some protoNum, ipv4Src := some src.1,
      ipv4Dst := some dst.1, tcpSrc := some src.2, tcpDst := some dst.2 }
  else
    { ethType := some ETH_TYPE_IP, ipProto := some protoNum, ipv4Src := some src.1,
      ipv4Dst := some dst.1, udpSrc := some src.2, udpDst := some dst.2 }

section TrustMatch

variable (protoNum : ℕ) (src dst : Endpoint)

@[simp] theorem trustMatch_ethType :
    (trustMatch protoNum src dst).ethType = some ETH_TYPE_IP := by
  unfold trustMatch; split <;> rfl

@[simp] theorem trustMatch_ipProto : (trustMatch protoNum src dst).ipProto = some protoNum := by
  unfold trustMatch; split <;> rfl

@[simp] theorem trustMatch_ipv4Src : (trustMatch protoNum src dst).ipv4Src = some src.1 := by
  unfold trustMatch; split <;> rfl

@[simp] theorem trustMatch_ipv4Dst : (trustMatch protoNum src dst).ipv4Dst = some dst.1 := by
  unfold trustMatch; split <;> rfl

@[simp] theorem trustMatch_dstPort :
    (trustMatch protoNum src dst).dstPort protoNum = some dst.2 := by
  unfold trustMatch OFPMatch.dstPort
  split <;> rfl

@[simp] theorem trustMatch_srcPort :
    (trustMatch protoNum src dst).srcPort protoNum = some src.2 := by
  unfold trustMatch OFPMatch.srcPort
  split <;> rfl

end TrustMatch

/-- The key of the flow a 5-tuple match is about. -/
def flowKeyOfMatch? (m : OFPMatch) : Option TrustKey := do
  let protoNum ← m.ipProto
  let src ← m.ipv4Src
  let dst ← m.ipv4Dst
  let srcPort ← if protoNum = 6 then m.tcpSrc else m.udpSrc
  let dstPort ← if protoNum = 6 then m.tcpDst else m.udpDst
  some (trustKey protoNum src srcPort dst dstPort)

@[simp] theorem flowKeyOfMatch?_trustMatch (protoNum : ℕ) (src dst : Endpoint) :
    flowKeyOfMatch? (trustMatch protoNum src dst) =
      some (trustKey protoNum src.1 src.2 dst.1 dst.2) := by
  unfold trustMatch
  by_cases h : protoNum = 6 <;> simp [flowKeyOfMatch?, h]

/-- Install one direction of a trusted flow. -/
def addTrustFlow (datapath : Datapath) (m : OFPMatch) (port : ℕ) : Fw Unit :=
  addFlow datapath TRUST_FLOW_PRIORITY m [{ port }] TRUST_FLOW_IDLE_TIMEOUT
    TRUST_FLOW_HARD_TIMEOUT

/-- `_install_trust_flow`: the direction of the packet, then the direction of the replies. -/
def installTrustFlow (datapath : Datapath) (ipPkt : IPv4) (l4Pkt : L4) (inPort outPort : ℕ) :
    Fw Bool := do
  let src : Endpoint := (ipPkt.src, l4Pkt.srcPort)
  let dst : Endpoint := (ipPkt.dst, l4Pkt.dstPort)
  if ipPkt.proto = 6 ∨ ipPkt.proto = 17 then
    addTrustFlow datapath (trustMatch ipPkt.proto src dst) outPort
    addTrustFlow datapath (trustMatch ipPkt.proto dst src) inPort
    log "info"
      ("Trust flow installed: " ++ ipPkt.src ++ ":" ++ toString l4Pkt.srcPort ++ " <-> " ++
        ipPkt.dst ++ ":" ++ toString l4Pkt.dstPort ++ ",proto=" ++ toString ipPkt.proto)
      ipPkt.src ipPkt.dst "TRUST_FLOW"
    pure true
  else pure false

/-- `_record_trust`: count the packet, and install the flow when it has earned its trust. -/
def recordTrust (datapath : Datapath) (ipPkt : IPv4) (l4Pkt : L4) (inPort outPort : ℕ) :
    Fw Unit := do
  if ipPkt.proto = 6 ∨ ipPkt.proto = 17 then
    let (ref, entry) ← getOrCreateFlowEntry (flowKeyOf ipPkt l4Pkt)
    if entry.installed then pure ()
    else
      updateEntry ref fun e => { e with count := e.count + 1 }
      if entry.count + 1 < TRUST_K then pure ()
      else
        let done ← installTrustFlow datapath ipPkt l4Pkt inPort outPort
        if done then
          updateEntry ref fun e => { e with installed := true }
          Prog.modify (·.bump .trustFlowsInstalled)
  else pure ()

/-! ## One undisturbed run -/

/-- The record of a key; a fresh one when there is none. -/
def FirewallApp.entryOf (c : FirewallApp) (key : TrustKey) : TrustEntry :=
  (c.trustTable.get? key).getD {}

/-- A flow without a record has the record of a new one. -/
theorem entryOf_of_get?_none {c : FirewallApp} {key : TrustKey}
    (h : c.trustTable.get? key = none) : c.entryOf key = {} := by
  rw [FirewallApp.entryOf, h]
  rfl

/-- A flow with a record has that one. -/
theorem entryOf_of_get?_some {c : FirewallApp} {key : TrustKey} {e : TrustEntry}
    (h : c.trustTable.get? key = some e) : c.entryOf key = e := by
  rw [FirewallApp.entryOf, h]
  rfl

/-- The record is there afterwards, as it was or new. -/
theorem run_getOrCreateFlowEntry (key : TrustKey) (c : FirewallApp) :
    (getOrCreateFlowEntry key).run c =
      ⟨.ok (⟨key, c.generation key⟩, c.entryOf key), c.setTrust key (c.entryOf key), []⟩ := by
  simp only [getOrCreateFlowEntry, Prog.run_bind, Prog.run_read, Outcome.andThen_ok]
  cases h : c.trustTable.get? key with
  | none => simp [entryOf_of_get?_none h]
  | some entry =>
      have hset : c.setTrust key entry = c := by
        simp only [FirewallApp.setTrust, Dict.set_eq_self h]
      simp [entryOf_of_get?_some h, hset]

/-- A reference just taken reaches the table. -/
theorem updateEntry_setTrust (c : FirewallApp) (key : TrustKey) (e : TrustEntry)
    (f : TrustEntry → TrustEntry) :
    (c.setTrust key e).updateEntry ⟨key, c.generation key⟩ f = c.setTrust key (f e) := by
  simp [FirewallApp.updateEntry, FirewallApp.setTrust]

/-- The record with a payload appended to one direction. -/
def TrustEntry.fed (e : TrustEntry) (side : Side) (payload : Bytes) : TrustEntry :=
  e.setBuf side (e.buf side ++ payload.take (MAX_BUFFER_BYTES - (e.buf side).length))

/-- The log entry of a signature match. -/
def dpiLogEntry (ipPkt : IPv4) (verdict : DPIVerdict) : LogEntry :=
  let name := verdict.patternName.getD "None"
  ⟨"block", "DPI blocked [" ++ name ++ "] from " ++ ipPkt.src, ipPkt.src, ipPkt.dst,
    "DPI: " ++ name⟩

/-- The record of a flow after the DPI stage saw a payload. -/
def TrustEntry.inspected (e : TrustEntry) (dpi : DPIEngine) (side : Side) (payload : Bytes) :
    TrustEntry :=
  if e.blocked ∨ payload.isEmpty then e
  else { e.fed side payload with
    blocked := (dpi.inspect ((e.fed side payload).buf side)).isMatch }

@[simp] theorem TrustEntry.buf_setBuf_self (e : TrustEntry) (s : Side) (buf : Bytes) :
    (e.setBuf s buf).buf s = buf := by
  cases s <;> rfl

@[simp] theorem TrustEntry.blocked_setBuf (e : TrustEntry) (s : Side) (buf : Bytes) :
    (e.setBuf s buf).blocked = e.blocked := by
  cases s <;> rfl

@[simp] theorem TrustEntry.count_setBuf (e : TrustEntry) (s : Side) (buf : Bytes) :
    (e.setBuf s buf).count = e.count := by
  cases s <;> rfl

@[simp] theorem TrustEntry.installed_setBuf (e : TrustEntry) (s : Side) (buf : Bytes) :
    (e.setBuf s buf).installed = e.installed := by
  cases s <;> rfl

/-- The DPI stage passes the record of the flow through `inspected`, rejects exactly the packets
that leave it blocked, and logs the packet that blocks it. -/
theorem run_checkDpi (ipPkt : IPv4) (tcpPkt : Tcp) (payload : Bytes) (c : FirewallApp) :
    (checkDpi ipPkt tcpPkt payload).run c =
      let key := flowKeyOf ipPkt tcpPkt.l4
      let e := c.entryOf key
      let side := key.side (ipPkt.src, tcpPkt.srcPort)
      let e' := e.inspected c.dpi side payload
      let c' := c.setTrust key e'
      if e'.blocked then
        if e.blocked then ⟨.ok .dpiBlocked, c', []⟩
        else
          let entry := dpiLogEntry ipPkt (c.dpi.inspect (e'.buf side))
          ⟨.ok .dpiBlocked, (c'.bump .dpiBlocked).logged entry,
            logOut (c'.bump .dpiBlocked) entry⟩
      else ⟨.ok .allowed, c', []⟩ := by
  simp only [checkDpi, Prog.run_bind, run_getOrCreateFlowEntry, Outcome.andThen_ok]
  generalize hkey : flowKeyOf ipPkt tcpPkt.l4 = key
  generalize he : c.entryOf key = e
  generalize hside : key.side (ipPkt.src, tcpPkt.srcPort) = side
  -- a blocked record and an empty payload both end the call before the buffer is touched
  by_cases hb : e.blocked = true
  · simp [TrustEntry.inspected, hb]
  by_cases hp : payload.isEmpty = true
  · simp [TrustEntry.inspected, hb, hp]
  rw [Bool.not_eq_true] at hb hp
  simp only [hb, hp, Bool.false_eq_true, if_false, updateEntry, Prog.run_bind, Prog.run_modify,
    Outcome.andThen_ok, updateEntry_setTrust, Prog.run_read, FirewallApp.setTrust_dpi]
  have hins : e.inspected c.dpi side payload = { e.fed side payload with
      blocked := (c.dpi.inspect ((e.fed side payload).buf side)).isMatch } := by
    simp [TrustEntry.inspected, hb, hp]
  have hbuf : (e.fed side payload).buf side =
      e.buf side ++ payload.take (MAX_BUFFER_BYTES - (e.buf side).length) := by
    simp [TrustEntry.fed]
  have hbuf' : (e.inspected c.dpi side payload).buf side = (e.fed side payload).buf side := by
    rw [hins]; cases side <;> rfl
  rw [← hbuf]
  -- the whole buffer is inspected, not the new part alone
  by_cases hm : (c.dpi.inspect ((e.fed side payload).buf side)).isMatch = true
  · have hfed : { e.fed side payload with blocked := true } =
        e.inspected c.dpi side payload := by rw [hins, hm]
    rw [if_pos hm]
    rw [if_pos (by rw [← hfed])]
    have hstep : e.setBuf side (e.buf side ++
        payload.take (MAX_BUFFER_BYTES - (e.buf side).length)) = e.fed side payload := rfl
    simp only [Prog.run_bind, Prog.run_modify, Outcome.andThen_ok, run_log, Prog.run_pure,
      List.nil_append, List.append_nil, hbuf, hstep, updateEntry_setTrust, hfed]
    rw [hbuf', hbuf]
    rfl
  · have hfed : e.fed side payload = e.inspected c.dpi side payload := by
      have hnb : (e.fed side payload).blocked = false := by simp [TrustEntry.fed, hb]
      rw [hins, (Bool.not_eq_true _).mp hm, ← hnb]
    rw [if_neg hm, if_neg (by rw [hins]; exact hm), ← hfed, hbuf]
    rfl

/-- The record of a flow after one more trusted packet. -/
def TrustEntry.recorded (e : TrustEntry) : TrustEntry :=
  if e.installed then e
  else { e with count := e.count + 1, installed := decide (TRUST_K ≤ e.count + 1) }

/-- The log entry of a trust installation. -/
def trustLogEntry (ipPkt : IPv4) (l4Pkt : L4) : LogEntry :=
  ⟨"info",
    "Trust flow installed: " ++ ipPkt.src ++ ":" ++ toString l4Pkt.srcPort ++ " <-> " ++
      ipPkt.dst ++ ":" ++ toString l4Pkt.dstPort ++ ",proto=" ++ toString ipPkt.proto,
    ipPkt.src, ipPkt.dst, "TRUST_FLOW"⟩

/-- One direction of a trusted flow, as a message. -/
def trustFlowMod (m : OFPMatch) (port : ℕ) : OFPFlowMod :=
  addFlowMod TRUST_FLOW_PRIORITY m [{ port }] TRUST_FLOW_IDLE_TIMEOUT TRUST_FLOW_HARD_TIMEOUT none

/-- The two messages of a trust installation. -/
def trustMods (ipPkt : IPv4) (l4Pkt : L4) (inPort outPort : ℕ) : List OFPFlowMod :=
  [trustFlowMod (trustMatch ipPkt.proto (ipPkt.src, l4Pkt.srcPort) (ipPkt.dst, l4Pkt.dstPort))
      outPort,
   trustFlowMod (trustMatch ipPkt.proto (ipPkt.dst, l4Pkt.dstPort) (ipPkt.src, l4Pkt.srcPort))
      inPort]

/-- One more packet completes the trust of the record. -/
def TrustEntry.Completes (e : TrustEntry) : Prop := e.installed = false ∧ TRUST_K ≤ e.count + 1

instance (e : TrustEntry) : Decidable e.Completes := inferInstanceAs (Decidable (_ ∧ _))

/-- Recording trust passes the record of the flow through `recorded`, and sends the pair of entries
exactly when the packet completes the trust. -/
theorem run_recordTrust (datapath : Datapath) (ipPkt : IPv4) (l4Pkt : L4) (inPort outPort : ℕ)
    (c : FirewallApp) :
    (recordTrust datapath ipPkt l4Pkt inPort outPort).run c =
      if ipPkt.proto = 6 ∨ ipPkt.proto = 17 then
        let key := flowKeyOf ipPkt l4Pkt
        let c' := c.setTrust key (c.entryOf key).recorded
        if (c.entryOf key).Completes then
          let entry := trustLogEntry ipPkt l4Pkt
          ⟨.ok (), (c'.logged entry).bump .trustFlowsInstalled,
            (trustMods ipPkt l4Pkt inPort outPort).map (fun mod =>
              .sendMsg datapath.id (.flowMod mod)) ++ logOut c entry⟩
        else ⟨.ok (), c', []⟩
      else ⟨.ok (), c, []⟩ := by
  by_cases hproto : ipPkt.proto = 6 ∨ ipPkt.proto = 17
  swap
  · simp [recordTrust, hproto]
  simp only [recordTrust, if_pos hproto, Prog.run_bind, run_getOrCreateFlowEntry,
    Outcome.andThen_ok]
  generalize hkey : flowKeyOf ipPkt l4Pkt = key
  generalize he : c.entryOf key = e
  -- a record that is marked installed is not counted any more
  by_cases hi : e.installed = true
  · simp [TrustEntry.recorded, TrustEntry.Completes, hi]
  simp only [if_neg hi, updateEntry, Prog.run_bind, Prog.run_modify, Outcome.andThen_ok,
    updateEntry_setTrust]
  rw [Bool.not_eq_true] at hi
  by_cases hk : e.count + 1 < TRUST_K
  · have hrec : e.recorded = { e with count := e.count + 1 } := by
      simp [TrustEntry.recorded, hi, hk]
    have hcomp : ¬ e.Completes := fun h => absurd h.2 (not_le.mpr hk)
    rw [if_pos hk, if_neg hcomp, hrec]
    rfl
  · have hrec : { e with count := e.count + 1, installed := true } = e.recorded := by
      simp [TrustEntry.recorded, hi, not_lt.mp hk]
    have hcomp : e.Completes := ⟨hi, not_lt.mp hk⟩
    rw [if_neg hk, if_pos hcomp]
    simp only [installTrustFlow, addTrustFlow, if_pos hproto, Prog.run_bind, run_addFlow, run_log,
      Prog.run_modify, Prog.run_pure, Outcome.andThen_ok, List.nil_append, List.append_nil,
      List.cons_append, if_true]
    -- the mark is set behind the log call, which leaves the record where it is
    have hupd : ((c.setTrust key { e with count := e.count + 1 }).logged
          (trustLogEntry ipPkt l4Pkt)).updateEntry ⟨key, c.generation key⟩
            (fun e => { e with installed := true }) =
        (c.setTrust key e.recorded).logged (trustLogEntry ipPkt l4Pkt) := by
      rw [← hrec]
      simp [FirewallApp.updateEntry, FirewallApp.setTrust, FirewallApp.logged]
    exact Outcome.ext rfl (congrArg (·.bump .trustFlowsInstalled) hupd) rfl

end SdnFirewall
