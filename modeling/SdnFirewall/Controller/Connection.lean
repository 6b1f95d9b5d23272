import Mathlib.Data.Finset.Lattice.Fold
import Mathlib.Order.Lattice.Nat
import SdnFirewall.Common.Dict
import SdnFirewall.Controller.Handlers

/-!
# The negotiation with a switch

A connection goes through the phases `HANDSHAKE`, `CONFIG` and `MAIN`, driven by the handlers of the
base application; an exception of one of them ends the connection. The firewall observes the
features reply in `CONFIG` and packet-ins in `MAIN`.
-/

namespace SdnFirewall

open Common

/-- The negotiation phases. -/
inductive Dispatcher where
  | handshake
  | config
  | main
  | dead
deriving DecidableEq

/-- A port description, of which only the number is looked at. -/
structure OFPPort where
  portNo : ℕ
deriving DecidableEq

def OFPPR_ADD : ℕ := 0
def OFPPR_DELETE : ℕ := 1
def OFPPR_MODIFY : ℕ := 2

/-- A message from a switch, with what the handlers read of it. -/
inductive SwitchMsg where
  | hello (version : ℕ) (elements : List (List ℕ))
  | echoRequest (xid : ℕ) (data : Bytes)
  | switchFeatures (datapathId : ℕ)
  | portDescStatsReply (body : List OFPPort) (more : Bool)
  | portStatus (reason : ℕ) (desc : OFPPort)
  | packetIn (msg : PacketIn)
  /-- A message that is at most logged, which may raise. -/
  | other (raises : Bool)

/-- Why a hello was turned down. -/
inductive HelloFailure where
  | noUsable
  | notNegotiated
  | lowerUsable
  | unsupported
deriving DecidableEq

/-- A message the base application sends. -/
inductive BaseMsg where
  | error (reason : HelloFailure)
  | featuresRequest
  | portDescStatsRequest
  | echoReply (xid : ℕ) (data : Bytes)
deriving DecidableEq

/-! ## Versions -/

/-- `max` of a set of versions. -/
def maxVersion (versions : Finset ℕ) : ℕ := versions.sup id

/-- `usable_versions`, if there are any. -/
def useVersion (usable : Finset ℕ) : Except HelloFailure ℕ :=
  if usable = ∅ then .error .unsupported else .ok (maxVersion usable)

/-- The version `hello_handler` settles on. -/
def negotiate (supported : Finset ℕ) (ofpVersion version : ℕ) (elements : List (List ℕ)) :
    Except HelloFailure ℕ :=
  if elements ≠ [] then
    let switchVersions := elements.flatten.toFinset
    let usable := switchVersions ∩ supported
    let negotiated := switchVersions.filter fun v => v ≤ maxVersion supported
    if negotiated ≠ ∅ ∧ usable = ∅ then .error .noUsable
    else if negotiated ≠ ∅ ∧ usable ≠ ∅ ∧ maxVersion negotiated ≠ maxVersion usable then
      .error .notNegotiated
    else useVersion usable
  else
    let usable := supported.filter fun v => v ≤ version
    if usable ≠ ∅ ∧ maxVersion usable ≠ min version ofpVersion then .error .lowerUsable
    else useVersion usable

def OFP_VERSION : ℕ := 4

/-- The versions the firewall asks for. -/
def OFP_VERSIONS : Finset ℕ := {OFP_VERSION}

/-! ## Phases -/

/-- What a `Datapath` keeps of the negotiation. -/
structure Connection where
  state : Dispatcher := .handshake
  id : Option ℕ := none
  ports : Option (Dict ℕ OFPPort) := none

namespace Connection

/-- `datapath.ports[port.port_no] = port`, for every port; there may be no dictionary yet. -/
def storePorts (conn : Connection) : List OFPPort → Option Connection
  | [] => some conn
  | port :: ports => do
    let known ← conn.ports
    storePorts { conn with ports := some (known.set port.portNo port) } ports

def helloHandler (conn : Connection) (version : ℕ) (elements : List (List ℕ)) :
    Connection × List BaseMsg :=
  match negotiate OFP_VERSIONS OFP_VERSION version elements with
  | .error reason => (conn, [.error reason])
  | .ok _ => ({ conn with state := .config }, [.featuresRequest])

def switchFeaturesHandler (conn : Connection) (datapathId : ℕ) : Connection × List BaseMsg :=
  ({ conn with id := some datapathId, ports := some .empty }, [.portDescStatsRequest])

def multipartReplyHandler (conn : Connection) (body : List OFPPort) (more : Bool) :
    Option (Connection × List BaseMsg) := do
  let conn ← conn.storePorts body
  if more then return (conn, []) else return ({ conn with state := .main }, [])

def portStatusHandler (conn : Connection) (reason : ℕ) (desc : OFPPort) :
    Option (Connection × List BaseMsg) :=
  if reason = OFPPR_ADD ∨ reason = OFPPR_MODIFY then do
    let known ← conn.ports
    return ({ conn with ports := some (known.set desc.portNo desc) }, [])
  else if reason = OFPPR_DELETE then do
    let known ← conn.ports
    return ({ conn with ports := some (known.filterKeys fun no => no ≠ desc.portNo) }, [])
  else some (conn, [])

/-- The handlers of the base application, each in the phases it is registered for; `none` when one
raises. -/
def handlers (conn : Connection) : SwitchMsg → Option (Connection × List BaseMsg)
  | .hello version elements =>
    if conn.state = .handshake then some (conn.helloHandler version elements) else some (conn, [])
  | .echoRequest xid data => some (conn, [.echoReply xid data])
  | .switchFeatures datapathId =>
    if conn.state = .config then some (conn.switchFeaturesHandler datapathId) else some (conn, [])
  | .portDescStatsReply body more =>
    if conn.state = .config then conn.multipartReplyHandler body more else some (conn, [])
  | .portStatus reason desc =>
    if conn.state = .main then conn.portStatusHandler reason desc else some (conn, [])
  | .packetIn _ => some (conn, [])
  | .other raises => if raises then none else some (conn, [])

/-- `close`. -/
def close (conn : Connection) : Connection := { conn with state := .dead }

/-- One message of the receive loop, which an exception ends. -/
def dispatch (conn : Connection) (m : SwitchMsg) : Connection :=
  match conn.handlers m with
  | some (conn', _) => conn'
  | none => conn.close

end Connection

/-- An event the firewall is registered for. -/
inductive AppEvent where
  | switchFeatures
  | packetIn (msg : PacketIn)

/-- The phases in which the firewall handles an event. -/
def AppEvent.dispatcher : AppEvent → Dispatcher
  | .switchFeatures => .config
  | .packetIn _ => .main

/-- The event a message is to the firewall, in the right phase. -/
def SwitchMsg.event? : SwitchMsg → Option AppEvent
  | .switchFeatures _ => some .switchFeatures
  | .packetIn msg => some (.packetIn msg)
  | _ => none

/-- `send_event_to_observers`, as far as the firewall is concerned. -/
def Connection.observed? (conn : Connection) (m : SwitchMsg) : Option AppEvent :=
  m.event?.filter fun ev => ev.dispatcher = conn.state

/-! ## What a message changes -/

namespace Connection

variable {conn : Connection} {m : SwitchMsg}

/-- Storing ports changes neither the phase nor the number. -/
theorem storePorts_state {conn' : Connection} {body : List OFPPort}
    (h : conn.storePorts body = some conn') : conn'.id = conn.id ∧ conn'.state = conn.state := by
  induction body generalizing conn with
  | nil =>
      obtain rfl := Option.some.inj h
      exact ⟨rfl, rfl⟩
  | cons port ports ih =>
      obtain ⟨known, -, hrest⟩ := Option.bind_eq_some_iff.mp h
      have hkept := ih hrest
      exact hkept

/-- The ways the handlers of a message can change the phase and the number. -/
inductive Moved (conn : Connection) : SwitchMsg → Connection → Prop
  | stays {m : SwitchMsg} {conn' : Connection} (hid : conn'.id = conn.id)
      (hstate : conn'.state = conn.state) : Moved conn m conn'
  | negotiated {version : ℕ} {elements : List (List ℕ)} {conn' : Connection}
      (hphase : conn.state = .handshake) (hid : conn'.id = conn.id)
      (hstate : conn'.state = .config) : Moved conn (.hello version elements) conn'
  | features {d : ℕ} {conn' : Connection} (hphase : conn.state = .config)
      (hid : conn'.id = some d) (hstate : conn'.state = .config) :
      Moved conn (.switchFeatures d) conn'
  | ready {body : List OFPPort} {conn' : Connection} (hphase : conn.state = .config)
      (hid : conn'.id = conn.id) (hstate : conn'.state = .main) :
      Moved conn (.portDescStatsReply body false) conn'

/-- Handlers that return change the phase and the number in one of these ways. -/
theorem moved_of_handlers {conn' : Connection} {msgs : List BaseMsg}
    (h : conn.handlers m = some (conn', msgs)) : conn.Moved m conn' := by
  cases m with
  | hello version elements =>
      simp only [handlers] at h
      split at h
      -- each message has a handler in one phase only; in the others nothing happens
      · rename_i hphase
        simp only [helloHandler] at h
        split at h
        · cases h
          exact .stays rfl rfl
        · cases h
          exact .negotiated hphase rfl rfl
      · cases h
        exact .stays rfl rfl
  | switchFeatures d =>
      simp only [handlers] at h
      split at h
      · rename_i hphase
        cases h
        exact .features hphase rfl hphase
      · cases h
        exact .stays rfl rfl
  | portDescStatsReply body more =>
      simp only [handlers] at h
      split at h
      · rename_i hphase
        obtain ⟨stored, hstored, hrest⟩ := Option.bind_eq_some_iff.mp h
        obtain ⟨hid, hstate⟩ := storePorts_state hstored
        cases more with
        -- the ports come in several replies, of which the last one ends the phase
        | true =>
            cases hrest
            exact .stays hid hstate
        | false =>
            cases hrest
            exact .ready hphase hid rfl
      · cases h
        exact .stays rfl rfl
  | portStatus reason desc =>
      simp only [handlers] at h
      split at h
      · simp only [portStatusHandler] at h
        split at h
        · obtain ⟨known, -, hrest⟩ := Option.bind_eq_some_iff.mp h
          cases hrest
          exact .stays rfl rfl
        split at h
        · obtain ⟨known, -, hrest⟩ := Option.bind_eq_some_iff.mp h
          cases hrest
          exact .stays rfl rfl
        · cases h
          exact .stays rfl rfl
      · cases h
        exact .stays rfl rfl
  | echoRequest xid data =>
      cases h
      exact .stays rfl rfl
  | packetIn msg =>
      cases h
      exact .stays rfl rfl
  | other raises =>
      simp only [handlers] at h
      split at h
      · cases h
      · cases h
        exact .stays rfl rfl

/-- So does a message, unless it ends the connection. -/
theorem moved_dispatch (conn : Connection) (m : SwitchMsg) :
    conn.Moved m (conn.dispatch m) ∨ conn.dispatch m = conn.close := by
  unfold dispatch
  cases h : conn.handlers m with
  | none => exact Or.inr rfl
  | some r =>
      obtain ⟨conn', msgs⟩ := r
      exact Or.inl (moved_of_handlers h)

/-- Handlers that return do not close the connection. -/
theorem state_ne_dead_of_handlers {conn' : Connection} {msgs : List BaseMsg}
    (halive : conn.state ≠ .dead) (h : conn.handlers m = some (conn', msgs)) :
    conn'.state ≠ .dead := by
  cases moved_of_handlers h with
  | stays hid hstate => exact hstate ▸ halive
  | negotiated _ _ hstate | features _ _ hstate | ready _ _ hstate =>
      rw [hstate]
      exact nofun

end Connection

end SdnFirewall
