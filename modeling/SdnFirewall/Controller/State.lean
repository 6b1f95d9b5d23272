import Mathlib.Data.Finset.Insert
import Mathlib.Data.Rat.Defs
import Mathlib.Data.String.Basic
import SdnFirewall.Common.Dict
import SdnFirewall.Common.Prog
import SdnFirewall.Dpi.Engine
import SdnFirewall.OpenFlow.Table

/-!
# The state of the controller

`FirewallApp` with everything its handlers read or write, the verdicts of the checks, and the
outward actions a handler performs.
-/

namespace SdnFirewall

open Common OpenFlow Python

/-! ## Verdicts -/

/-- The counters of `self.stats`. -/
inductive StatKey where
  | allowed
  | blocked
  | total
  | arpSpoof
  | rateLimited
  | scanDetected
  | trustFlowsInstalled
  | dpiBlocked
deriving DecidableEq

/-- Outcome of a check. -/
inductive CheckResult where
  | allowed
  | ipBlocked
  | ipNotAllowlist
  | portBlocked
  | rateLimited
  | arpSpoof
  | xmasScan
  | nullScan
  | synFin
  | synRst
  | finScan
  | dpiBlocked
deriving DecidableEq

namespace CheckResult

def level : CheckResult → String
  | allowed => "allow"
  | ipBlocked | ipNotAllowlist | portBlocked | rateLimited | dpiBlocked => "block"
  | arpSpoof | xmasScan | nullScan | synFin | synRst | finScan => "warn"

def statKey : CheckResult → Option StatKey
  | allowed => none
  | ipBlocked | ipNotAllowlist | portBlocked => some .blocked
  | rateLimited => some .rateLimited
  | arpSpoof => some .arpSpoof
  | xmasScan | nullScan | synFin | synRst | finScan => some .scanDetected
  | dpiBlocked => some .dpiBlocked

def extraTag : CheckResult → String
  | allowed => "ALLOWED"
  | ipBlocked => "IP_BLOCK"
  | ipNotAllowlist => "IP_ALLOWLIST"
  | portBlocked => "PORT_BLOCK"
  | rateLimited => "RATE_LIMIT"
  | arpSpoof => "ARP_SPOOF"
  | xmasScan => "XMAS_SCAN"
  | nullScan => "NULL_SCAN"
  | synFin | synRst | finScan => "MALFORMED"
  | dpiBlocked => "DPI_BLOCK"

/-- `resolve`: the message template with the arguments `_apply_result` passes filled in. The DPI
template is never resolved; its signature argument is left empty. -/
def resolve (r : CheckResult) (src proto : String) (port : ℕ) : String :=
  match r with
  | allowed => "Packet allowed"
  | ipBlocked => "IP blocked: " ++ src
  | ipNotAllowlist => "IP not in allowlist: " ++ src
  | portBlocked => proto ++ " port " ++ toString port ++ " blocked"
  | rateLimited => "Rate limit exceeded: " ++ src
  | arpSpoof => "ARP spoof: " ++ src
  | xmasScan => "Xmas scan from " ++ src
  | nullScan => "NULL scan from " ++ src
  | synFin => "SYN+FIN from " ++ src
  | synRst => "SYN+RST from " ++ src
  | finScan => "FIN scan from " ++ src
  | dpiBlocked => "DPI blocked [] from " ++ src

end CheckResult

/-! ## Trust records -/

/-- An address and a port. -/
abbrev Endpoint := String × ℕ

/-- Python's order on `(address, port)` tuples. -/
def Endpoint.Le (a b : Endpoint) : Prop := a.1 < b.1 ∨ (a.1 = b.1 ∧ a.2 ≤ b.2)

instance (a b : Endpoint) : Decidable (a.Le b) :=
  inferInstanceAs (Decidable (_ ∨ _ ∧ _))

/-- Any two endpoints are ordered one way or the other. -/
theorem Endpoint.le_total (a b : Endpoint) : a.Le b ∨ b.Le a := by
  rcases lt_trichotomy a.1 b.1 with h | h | h
  · exact Or.inl (Or.inl h)
  · rcases Nat.le_total a.2 b.2 with h' | h'
    · exact Or.inl (Or.inr ⟨h, h'⟩)
    · exact Or.inr (Or.inr ⟨h.symm, h'⟩)
  · exact Or.inr (Or.inl h)

/-- A key of the trust table: protocol and the two endpoints, smaller one first. -/
structure TrustKey where
  proto : ℕ
  a : Endpoint
  b : Endpoint
deriving DecidableEq

/-- `_trust_key`: the key of a flow, the same for both directions. -/
def trustKey (protoNum : ℕ) (aIp : String) (aPort : ℕ) (bIp : String) (bPort : ℕ) : TrustKey :=
  let a : Endpoint := (aIp, aPort)
  let b : Endpoint := (bIp, bPort)
  if a.Le b then ⟨protoNum, a, b⟩ else ⟨protoNum, b, a⟩

@[simp] theorem trustKey_proto (p : ℕ) (aIp : String) (aPort : ℕ) (bIp : String) (bPort : ℕ) :
    (trustKey p aIp aPort bIp bPort).proto = p := by
  dsimp only [trustKey]; split <;> rfl

/-- The endpoints of a key are in order. -/
theorem trustKey_le (p : ℕ) (aIp : String) (aPort : ℕ) (bIp : String) (bPort : ℕ) :
    (trustKey p aIp aPort bIp bPort).a.Le (trustKey p aIp aPort bIp bPort).b := by
  dsimp only [trustKey]
  split
  · assumption
  · exact (Endpoint.le_total _ _).resolve_left ‹_›

/-- Endpoints in both orders are equal. -/
theorem Endpoint.le_antisymm {a b : Endpoint} (hab : a.Le b) (hba : b.Le a) : a = b := by
  rcases hab with h | ⟨h, hport⟩
  · rcases hba with h' | ⟨h', -⟩
    · exact absurd h' (lt_asymm h)
    · exact absurd h (h' ▸ lt_irrefl _)
  · rcases hba with h' | ⟨-, hport'⟩
    · exact absurd h' (h ▸ lt_irrefl _)
    · exact Prod.ext h (Nat.le_antisymm hport hport')

/-- Both directions of a flow have the same key. -/
theorem trustKey_comm (p : ℕ) (aIp : String) (aPort : ℕ) (bIp : String) (bPort : ℕ) :
    trustKey p aIp aPort bIp bPort = trustKey p bIp bPort aIp aPort := by
  dsimp only [trustKey]
  by_cases hab : Endpoint.Le (aIp, aPort) (bIp, bPort)
  · by_cases hba : Endpoint.Le (bIp, bPort) (aIp, aPort)
    · rw [if_pos hab, if_pos hba, Endpoint.le_antisymm hab hba]
    · rw [if_pos hab, if_neg hba]
  · rw [if_neg hab, if_pos ((Endpoint.le_total _ _).resolve_left hab)]

/-- The two endpoints of a key are the two that were given, in one of the two orders. -/
theorem trustKey_endpoints (p : ℕ) (aIp : String) (aPort : ℕ) (bIp : String) (bPort : ℕ) :
    trustKey p aIp aPort bIp bPort = ⟨p, (aIp, aPort), (bIp, bPort)⟩ ∨
      trustKey p aIp aPort bIp bPort = ⟨p, (bIp, bPort), (aIp, aPort)⟩ := by
  dsimp only [trustKey]
  split
  · exact Or.inl rfl
  · exact Or.inr rfl

structure TrustEntry where
  count : ℕ := 0
  installed : Bool := false
  bufA : Bytes := []
  bufB : Bytes := []
  blocked : Bool := false
deriving DecidableEq

/-! ## Log, counters and outward actions -/

/-- An entry of the event log, without its clock text. -/
structure LogEntry where
  level : String
  msg : String
  src : String
  dst : String
  extra : String
deriving DecidableEq

/-- `self.stats`. -/
structure Stats where
  allowed : ℕ := 0
  blocked : ℕ := 0
  total : ℕ := 0
  arpSpoof : ℕ := 0
  rateLimited : ℕ := 0
  scanDetected : ℕ := 0
  trustFlowsInstalled : ℕ := 0
  dpiBlocked : ℕ := 0
deriving DecidableEq

/-- `self.stats[key] += 1`. -/
def Stats.incr (s : Stats) : StatKey → Stats
  | .allowed => { s with allowed := s.allowed + 1 }
  | .blocked => { s with blocked := s.blocked + 1 }
  | .total => { s with total := s.total + 1 }
  | .arpSpoof => { s with arpSpoof := s.arpSpoof + 1 }
  | .rateLimited => { s with rateLimited := s.rateLimited + 1 }
  | .scanDetected => { s with scanDetected := s.scanDetected + 1 }
  | .trustFlowsInstalled => { s with trustFlowsInstalled := s.trustFlowsInstalled + 1 }
  | .dpiBlocked => { s with dpiBlocked := s.dpiBlocked + 1 }

/-- A frame broadcast to the dashboards. -/
inductive WsFrame where
  | event (entry : LogEntry)
  | stats (stats : Stats)
deriving DecidableEq

/-- An outward action: a message to a switch, or a broadcast to the dashboards. -/
inductive Effect where
  | sendMsg (dpid : ℕ) (msg : OFPMsg)
  | broadcast (frame : WsFrame)
deriving DecidableEq

/-- The messages sent to one switch, in order. -/
def sentTo (dpid : ℕ) (os : List Effect) : List OFPMsg :=
  os.filterMap fun
    | .sendMsg d msg => if d = dpid then some msg else none
    | .broadcast _ => none

@[simp] theorem sentTo_nil (dpid : ℕ) : sentTo dpid [] = [] := rfl

@[simp] theorem sentTo_append (dpid : ℕ) (os os' : List Effect) :
    sentTo dpid (os ++ os') = sentTo dpid os ++ sentTo dpid os' :=
  List.filterMap_append

@[simp] theorem sentTo_cons_sendMsg (dpid d : ℕ) (msg : OFPMsg) (os : List Effect) :
    sentTo dpid (.sendMsg d msg :: os) =
      if d = dpid then msg :: sentTo dpid os else sentTo dpid os := by
  by_cases h : d = dpid <;> simp [sentTo, h]

/-- What a switch is sent is what was sent under its number. -/
theorem mem_sentTo {dpid : ℕ} {os : List Effect} {msg : OFPMsg} :
    msg ∈ sentTo dpid os ↔ Effect.sendMsg dpid msg ∈ os := by
  simp only [sentTo, List.mem_filterMap]
  constructor
  · rintro ⟨o, ho, heq⟩
    cases o with
    | broadcast f => simp at heq
    | sendMsg d m =>
        by_cases hd : d = dpid
        · subst hd
          obtain rfl : m = msg := by simpa using heq
          exact ho
        · simp [hd] at heq
  · intro h
    exact ⟨_, h, by simp⟩

/-! ## The application -/

/-- A connected switch. -/
structure Datapath where
  id : ℕ
deriving DecidableEq

/-- `FirewallApp`. `generation` counts, for each key, the trust records deleted so far: a reference
to a record is good while its generation lasts. -/
structure FirewallApp where
  macToPort : Dict String (Dict String ℕ)
  arpTable : Dict String String
  datapaths : Dict ℕ Datapath
  blockedIps : Finset String
  blockedPorts : Finset (ℕ × ℕ)
  allowedIps : Finset String
  rateTracker : Dict String (List ℚ)
  rateLimit : ℤ
  rateWindow : ℚ
  trustTable : Dict TrustKey TrustEntry
  dpi : DPIEngine
  eventLog : List LogEntry
  stats : Stats
  generation : TrustKey → ℕ

/-- A call of the controller. -/
abbrev Fw := Prog FirewallApp Effect Exc

/-- What a finished call of the controller leaves behind. -/
abbrev FwOutcome := Outcome FirewallApp Effect Exc

/-- A call of the DPI engine, as the controller makes it. -/
def onDpi {α : Type} (p : Prog DPIEngine Empty Exc α) : Fw α :=
  Prog.onPart FirewallApp.dpi (fun c dpi => { c with dpi }) p

/-- The DPI engine is a part of the controller. -/
theorem isPart_dpi : Prog.IsPart FirewallApp.dpi fun c dpi => { c with dpi } :=
  ⟨fun _ _ => rfl, fun _ _ _ => rfl, fun _ => rfl⟩

@[simp] theorem run_onDpi {α : Type} (p : Prog DPIEngine Empty Exc α) (c : FirewallApp) :
    (onDpi p).run c = ⟨(p.run c.dpi).val, { c with dpi := (p.run c.dpi).state }, []⟩ :=
  Prog.run_onPart isPart_dpi p c

@[simp] theorem runWith_onDpi {α : Type} (p : Prog DPIEngine Empty Exc α)
    (ans : ℕ → Effect → Except Exc Unit) (n : ℕ) (c : FirewallApp) :
    (onDpi p).runWith ans n c = ⟨(p.run c.dpi).val, { c with dpi := (p.run c.dpi).state }, []⟩ :=
  Prog.runWith_onPart isPart_dpi p ans n c

/-- A call of the engine that raises leaves the controller as it found it. -/
theorem state_of_allOrNothing {α : Type} {p : Prog DPIEngine Empty Exc α} (h : p.AllOrNothing)
    {c : FirewallApp} {e : Exc} (he : (p.run c.dpi).val = .error e) :
    ({ c with dpi := (p.run c.dpi).state } : FirewallApp) = c := by
  rw [h c.dpi e he]

namespace FirewallApp

/-- The state `__init__` sets up around a DPI engine. -/
def init (dpi : DPIEngine) : FirewallApp where
  macToPort := .empty
  arpTable := .empty
  datapaths := .empty
  blockedIps := ∅
  blockedPorts := ∅
  allowedIps := ∅
  rateTracker := .empty
  rateLimit := 1000
  rateWindow := 1
  trustTable := .empty
  dpi := dpi
  eventLog := []
  stats := {}
  generation := fun _ => 0

/-- `format(datapath.id, "d").zfill(16)`, the key of the learning table. -/
def dpidKey (dpid : ℕ) : String :=
  String.ofList (List.leftpad 16 '0' (Nat.toDigits 10 dpid))

/-- The ports learned on one switch. -/
def portsOf (c : FirewallApp) (dpid : ℕ) : Dict String ℕ :=
  (c.macToPort.get? (dpidKey dpid)).getD .empty

/-! ### Updates, one per piece of state -/

/-- Append to the event log, capped at 200 entries. -/
@[simps] def logged (c : FirewallApp) (entry : LogEntry) : FirewallApp :=
  { c with eventLog :=
      if (c.eventLog ++ [entry]).length > 200 then (c.eventLog ++ [entry]).tail
      else c.eventLog ++ [entry] }

@[simps] def bump (c : FirewallApp) (key : StatKey) : FirewallApp :=
  { c with stats := c.stats.incr key }

/-- `mac_to_port[dpid][mac] = port`. -/
@[simps] def learnMac (c : FirewallApp) (dpid : ℕ) (mac : String) (port : ℕ) : FirewallApp :=
  { c with macToPort := c.macToPort.set (dpidKey dpid) ((c.portsOf dpid).set mac port) }

@[simps] def bindArp (c : FirewallApp) (ip mac : String) : FirewallApp :=
  { c with arpTable := c.arpTable.set ip mac }

@[simps] def setTracker (c : FirewallApp) (ip : String) (times : List ℚ) : FirewallApp :=
  { c with rateTracker := c.rateTracker.set ip times }

@[simps] def setTrust (c : FirewallApp) (key : TrustKey) (entry : TrustEntry) : FirewallApp :=
  { c with trustTable := c.trustTable.set key entry }

/-- Delete the trust records whose key is selected. -/
@[simps] def dropTrust (c : FirewallApp) (selected : TrustKey → Bool) : FirewallApp :=
  { c with
    trustTable := c.trustTable.filterKeys fun k => !selected k
    generation := fun k =>
      if selected k ∧ k ∈ c.trustTable.keys then c.generation k + 1 else c.generation k }

end FirewallApp

end SdnFirewall
