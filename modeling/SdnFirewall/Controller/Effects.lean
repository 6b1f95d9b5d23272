import SdnFirewall.Controller.State

/-!
# Logging and sending

The helpers through which every handler acts outwards, and what one undisturbed run of each does.
-/

namespace SdnFirewall

open Common OpenFlow Python

/-- `_log`: append to the event log, then broadcast the entry and the counters. -/
def log (level msg src dst extra : String) : Fw Unit := do
  let entry : LogEntry := { level, msg, src, dst, extra }
  Prog.modify (·.logged entry)
  Prog.call (.broadcast (.event entry))
  let c ← Prog.read
  Prog.call (.broadcast (.stats c.stats))

/-- `datapath.send_msg`. -/
def sendMsg (datapath : Datapath) (msg : OFPMsg) : Fw Unit :=
  Prog.call (.sendMsg datapath.id msg)

/-- The message `add_flow` builds. -/
def addFlowMod (priority : ℕ) (ofMatch : OFPMatch) (actions : List OFPActionOutput)
    (idleTimeout hardTimeout : ℕ) (bufferId : Option ℕ) : OFPFlowMod where
  priority := priority
  idleTimeout := idleTimeout
  hardTimeout := hardTimeout
  ofMatch := ofMatch
  actions := actions
  bufferId := bufferId.getD OFP_NO_BUFFER

/-- `add_flow`: install an entry. -/
def addFlow (datapath : Datapath) (priority : ℕ) (ofMatch : OFPMatch)
    (actions : List OFPActionOutput) (idleTimeout hardTimeout : ℕ := 0)
    (bufferId : Option ℕ := none) : Fw Unit :=
  sendMsg datapath
    (.flowMod (addFlowMod priority ofMatch actions idleTimeout hardTimeout bufferId))

/-- The non-strict delete the flushes send. -/
def deleteMod (ofMatch : OFPMatch) : OFPFlowMod where
  command := .delete
  ofMatch := ofMatch
  outPort := OFPP_ANY
  outGroup := OFPG_ANY

/-- `for datapath in self.datapaths.values()` from position `i` on, with `fuel` switches to go. The
iterator walks the live dictionary and refuses to go on once its size is no longer `size`. -/
def forDatapathsFrom (body : Datapath → Fw Unit) (size i : ℕ) : ℕ → Fw Unit
  | 0 => do
    let c ← Prog.read
    if c.datapaths.size ≠ size then
      Prog.raise (.runtimeError "dictionary changed size during iteration")
  | fuel + 1 => do
    let c ← Prog.read
    if c.datapaths.size ≠ size then
      Prog.raise (.runtimeError "dictionary changed size during iteration")
    match c.datapaths.values[i]? with
    | none => pure ()
    | some datapath =>
      body datapath
      forDatapathsFrom body size (i + 1) fuel

/-- `for datapath in self.datapaths.values()`. -/
def forDatapaths (body : Datapath → Fw Unit) : Fw Unit := do
  let c ← Prog.read
  forDatapathsFrom body c.datapaths.size 0 c.datapaths.size

/-- `str(list(self.datapaths.keys()))`. -/
def FirewallApp.datapathsText (c : FirewallApp) : String := listText c.datapaths.keys

/-! ## One undisturbed run -/

/-- The two broadcasts of a log call. -/
def logOut (c : FirewallApp) (entry : LogEntry) : List Effect :=
  [.broadcast (.event entry), .broadcast (.stats (c.logged entry).stats)]

@[simp] theorem run_log (level msg src dst extra : String) (c : FirewallApp) :
    (log level msg src dst extra).run c =
      ⟨.ok (), c.logged ⟨level, msg, src, dst, extra⟩, logOut c ⟨level, msg, src, dst, extra⟩⟩ :=
  rfl

@[simp] theorem sentTo_logOut (dpid : ℕ) (c : FirewallApp) (entry : LogEntry) :
    sentTo dpid (logOut c entry) = [] := rfl

@[simp] theorem run_sendMsg (datapath : Datapath) (msg : OFPMsg) (c : FirewallApp) :
    (sendMsg datapath msg).run c = ⟨.ok (), c, [.sendMsg datapath.id msg]⟩ := rfl

@[simp] theorem run_addFlow (datapath : Datapath) (priority : ℕ) (ofMatch : OFPMatch)
    (actions : List OFPActionOutput) (idleTimeout hardTimeout : ℕ) (bufferId : Option ℕ)
    (c : FirewallApp) :
    (addFlow datapath priority ofMatch actions idleTimeout hardTimeout bufferId).run c =
      ⟨.ok (), c, [.sendMsg datapath.id
        (.flowMod (addFlowMod priority ofMatch actions idleTimeout hardTimeout bufferId))]⟩ := rfl

/-- A loop over the switches whose body only sends, from position `i` on. -/
theorem run_forDatapathsFrom {body : Datapath → Fw Unit} {out : Datapath → List Effect}
    (hbody : ∀ dp c, (body dp).run c = ⟨.ok (), c, out dp⟩) (c : FirewallApp) (fuel i : ℕ) :
    (forDatapathsFrom body c.datapaths.size i fuel).run c =
      ⟨.ok (), c, ((c.datapaths.values.drop i).take fuel).flatMap out⟩ := by
  induction fuel generalizing i with
  | zero => simp [forDatapathsFrom]
  | succ fuel ih =>
      simp only [forDatapathsFrom, ne_eq, Prog.run_bind, Prog.run_read, Outcome.andThen_ok,
        not_true_eq_false, if_false, List.nil_append]
      cases hi : c.datapaths.values[i]? with
      | none =>
          have hlen : c.datapaths.values.length ≤ i := List.getElem?_eq_none_iff.mp hi
          simp [List.drop_eq_nil_of_le hlen]
      | some dp =>
          obtain ⟨hlt, hget⟩ := List.getElem?_eq_some_iff.mp hi
          simp only [Prog.run_bind, hbody, Outcome.andThen_ok, ih]
          rw [List.drop_eq_getElem_cons hlt, hget, List.take_succ_cons, List.flatMap_cons]

/-- A loop over the switches whose body only sends: every switch is served, in order. -/
theorem run_forDatapaths {body : Datapath → Fw Unit} {out : Datapath → List Effect}
    (hbody : ∀ dp c, (body dp).run c = ⟨.ok (), c, out dp⟩) (c : FirewallApp) :
    (forDatapaths body).run c = ⟨.ok (), c, c.datapaths.values.flatMap out⟩ := by
  have hsize : c.datapaths.values.length = c.datapaths.size := List.length_map _
  simp only [forDatapaths, Prog.run_bind, Prog.run_read, Outcome.andThen_ok, List.nil_append,
    run_forDatapathsFrom hbody, List.drop_zero]
  rw [List.take_of_length_le hsize.le]

end SdnFirewall
