import SdnFirewall.Controller.Sections
import SdnFirewall.Rest.Wsgi

/-!
# The sections of `add_dpi_pattern`

The call puts the signature in the list in its first section and goes on into the loop over the
switches. Each round of the loop ends at two messages; behind the loop the trust table is cleared
before the first broadcast.
-/

namespace SdnFirewall

open Common OpenFlow Python

/-- The message that deletes all IPv4 entries of a switch. -/
def flushMsg : OFPMsg := .flowMod (deleteMod ipv4Match)

/-- The message that puts the catch-all back. -/
def refillMsg : OFPMsg := .flowMod (addFlowMod 300 ipv4Match [toController] 0 0 none)

/-- One round of the loop of `_flush_all_trust_flows`. -/
def flushSwitch (datapath : Datapath) : Fw Unit := do
  sendMsg datapath (.flowMod (deleteMod ipv4Match))
  addFlow datapath 300 ipv4Match [toController]

/-- What is left of the loop once its step at position `i` has found the state `c`. -/
def flushRound (c : FirewallApp) (i n : ℕ) : Fw Unit := do
  if c.datapaths.size ≠ c.datapaths.size then
    Prog.raise (.runtimeError "dictionary changed size during iteration")
  match c.datapaths.values[i]? with
  | none => pure ()
  | some datapath =>
    flushSwitch datapath
    forDatapathsFrom flushSwitch c.datapaths.size (i + 1) n

/-- `_flush_all_trust_flows` behind its loop. -/
def clearTrust : Fw Unit := do
  let c ← Prog.read
  let count := c.trustTable.size
  Prog.modify fun c =>
    { c.dropTrust (fun _ => true) with stats := { c.stats with trustFlowsInstalled := 0 } }
  log "info" ("Flushed " ++ toString count ++ " trust entries (DPI pattern change)") "" "" ""

/-- The call of `add_dpi_pattern` with `loop` left of its loop over the switches. -/
def inFlush (name : String) (loop : Fw Unit) : Fw Response :=
  Prog.tryCatch (do
    (do loop; clearTrust)
    log "info" ("DPI pattern added: " ++ name) "" "" ""
    pure { body := .pattern name }) (answerValueError 400)

/-- A call that at most logs, in every section. -/
abbrev QuietCall {α : Type} (p : Fw α) : Prop := p.Framed FirewallApp.core Effect.IsBroadcast

/-- A log call is quiet in each of its sections. -/
theorem log_quietCall (level msg src dst extra : String) :
    QuietCall (log level msg src dst extra) := by
  refine Prog.framed_bind (Prog.framed_modify fun _ => rfl) fun _ => ?_
  refine Prog.framed_bind (Prog.framed_call trivial) fun _ => ?_
  exact Prog.framed_bind Prog.framed_read fun _ => Prog.framed_call trivial

/-- So is the answer to an exception. -/
theorem answerValueError_quietCall (status : ℕ) (e : Exc) :
    QuietCall (answerValueError status e) := by
  cases e with
  | valueError msg => exact Prog.framed_pure _
  | _ => exact Prog.framed_raise _

/-- A call that ends with the handling of a `ValueError` ends. -/
theorem ended_answerValueError (status : ℕ) (e : Exc) : (answerValueError status e).Ended := by
  cases e <;> trivial

/-- `add_dpi_pattern` behind the reading of its body. -/
def storeAndFlush (compile : ReCompile) (name rawPattern description : Json) : Fw Response := do
  let pattern ← onDpi (DPIEngine.addPattern compile name rawPattern description)
  flushAllTrustFlows
  log "info" ("DPI pattern added: " ++ pattern.name) "" "" ""
  pure { body := .pattern pattern.name }

/-- The call is over at once, or it goes on to add its signature. -/
theorem addDpiPattern_cases (compile : ReCompile) (body : Except Exc Json) :
    (addDpiPattern compile body).Ended ∨ ∃ name rawPattern description,
      addDpiPattern compile body =
        (storeAndFlush compile name rawPattern description).tryCatch (answerValueError 400) := by
  cases body with
  | error e => cases e <;> exact Or.inl trivial
  | ok body =>
      rw [addDpiPattern, addPatternAndFlush]
      cases body.get "name" (.str "") with
      | error e => exact Or.inl (ended_answerValueError 400 e)
      | ok name =>
          cases body.get "pattern" (.str "") with
          | error e => exact Or.inl (ended_answerValueError 400 e)
          | ok rawPattern =>
              cases body.get "description" (.str "") with
              | error e => exact Or.inl (ended_answerValueError 400 e)
              | ok description => exact Or.inr ⟨name, rawPattern, description, rfl⟩

/-- The first section of the call: it ends with an answer or an exception and nothing done, or the
signature is in the list and the flush is about to begin. -/
theorem settle_addDpiPattern (compile : ReCompile) (body : Except Exc Json) (c : FirewallApp) :
    (((addDpiPattern compile body).settle c).1.Ended ∧
        ((addDpiPattern compile body).settle c).2 = c) ∨
      ∃ dpi pattern, dpi.patterns = c.dpi.patterns ++ [pattern] ∧
        (addDpiPattern compile body).settle c =
          (inFlush pattern.name (forDatapaths flushSwitch)).settle { c with dpi := dpi } := by
  rcases addDpiPattern_cases compile body with h | ⟨name, rawPattern, description, h⟩
  · rw [Prog.settle_of_ended h]
    exact Or.inl ⟨h, rfl⟩
  · have hadd := DPIEngine.allOrNothing_addPattern compile name rawPattern description
    rw [h, storeAndFlush, onDpi, Prog.settle_onPart_tryCatch isPart_dpi]
    cases hval : ((DPIEngine.addPattern compile name rawPattern description).run c.dpi).val with
    | error e =>
        dsimp only
        rw [state_of_allOrNothing hadd hval,
          Prog.settle_of_ended (ended_answerValueError 400 e)]
        exact Or.inl ⟨ended_answerValueError 400 e, rfl⟩
    | ok pattern =>
        have hadded := DPIEngine.added_of_addPattern ⟨hval, rfl⟩
        exact Or.inr ⟨_, pattern, hadded.patterns_eq, rfl⟩

/-- It does not start with an output. -/
theorem answerValueError_ne_emit (status : ℕ) (e : Exc) (o : Effect)
    (k : Except Exc Unit → Fw Response) : answerValueError status e ≠ .emit o k := by
  cases e <;> rintro ⟨⟩

/-- The call does not start with an outward action. -/
theorem addDpiPattern_ne_emit (compile : ReCompile) (body : Except Exc Json) (o : Effect)
    (k : Except Exc Unit → Fw Response) : addDpiPattern compile body ≠ .emit o k := by
  rcases addDpiPattern_cases compile body with h | ⟨name, rawPattern, description, h⟩
  · intro heq
    rw [heq] at h
    exact h
  · rw [h]
    refine Prog.tryCatch_ne_emit (Prog.onPart_bind_ne_emit fun pattern o k => ?_)
      (answerValueError_ne_emit 400) o k
    rintro ⟨⟩

/-- The section that starts the loop. -/
theorem settle_forDatapaths (name : String) (c : FirewallApp) :
    (inFlush name (forDatapaths flushSwitch)).settle c =
      (inFlush name (forDatapathsFrom flushSwitch c.datapaths.size 0 c.datapaths.size)).settle c :=
  rfl

/-- A section that starts with a round of the loop ends at the delete for its switch. -/
theorem settle_round (name : String) {c : FirewallApp} {i n : ℕ} {dp : Datapath}
    (hdp : c.datapaths.values[i]? = some dp) :
    ∃ k, (inFlush name (forDatapathsFrom flushSwitch c.datapaths.size i (n + 1))).settle c =
        (.emit (.sendMsg dp.id flushMsg) k, c) ∧
      ∃ k', k (.ok ()) = .emit (.sendMsg dp.id refillMsg) k' ∧
        k' (.ok ()) = inFlush name (forDatapathsFrom flushSwitch c.datapaths.size (i + 1) n) := by
  have hround : (inFlush name (forDatapathsFrom flushSwitch c.datapaths.size i (n + 1))).settle c =
      (inFlush name (flushRound c i n)).settle c := rfl
  rw [hround, flushRound, if_neg (not_not.mpr rfl), hdp]
  exact ⟨_, rfl, _, rfl, rfl⟩

/-- The section behind the last round clears the trust table and ends at a broadcast. -/
theorem settle_clear (name : String) (c : FirewallApp) (i : ℕ) :
    ∃ o k, (inFlush name (forDatapathsFrom flushSwitch c.datapaths.size i 0)).settle c =
        (.emit o k, c.cleared.logged (flushAllEntry c)) ∧ o.IsBroadcast ∧
      QuietCall (Prog.emit o k) := by
  have hquiet : QuietCall (Prog.tryCatch (do
      (log "info" ("Flushed " ++ toString c.trustTable.size ++
        " trust entries (DPI pattern change)") "" "" "")
      log "info" ("DPI pattern added: " ++ name) "" "" ""
      pure { body := .pattern name } : Fw Response) (answerValueError 400)) := by
    refine Prog.framed_tryCatch ?_ (answerValueError_quietCall 400)
    refine Prog.framed_bind (log_quietCall ..) fun _ => ?_
    exact Prog.framed_bind (log_quietCall ..) fun _ => Prog.framed_pure _
  have hlast : (inFlush name (forDatapathsFrom flushSwitch c.datapaths.size i 0)).settle c =
      (inFlush name (do
        if c.datapaths.size ≠ c.datapaths.size then
          Prog.raise (.runtimeError "dictionary changed size during iteration"))).settle c := rfl
  rw [hlast, if_neg (not_not.mpr rfl)]
  exact ⟨_, _, rfl, trivial, (hquiet.framedAt c.cleared).settle.2⟩

end SdnFirewall
