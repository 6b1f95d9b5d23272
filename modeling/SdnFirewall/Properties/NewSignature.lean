import SdnFirewall.Packet.Mininet
import SdnFirewall.Rest.Sections
import SdnFirewall.System.Interleaving
import SdnFirewall.System.Tables

/-!
# A new signature while handlers are at work

When `add_dpi_pattern` is over, no trust should rest on packets that were inspected without the new
signature. Handlers that were under way can break this in three ways, and in no other: an early
packet is counted after the trust table was cleared, an entry that rests on one is sent to a switch
the flush has passed, or a new switch turns up during the loop of the flush and ends it.
-/

namespace SdnFirewall

open Common OpenFlow Python

namespace Interleaving

/-- No trust rests on packets that were inspected before the signature was in the list. -/
structure Fresh (s : Interleaving) : Prop where
  entries : ∀ d ∈ s.ctl.datapaths.keys, ∀ e ∈ s.tables d, e.priority = TRUST_FLOW_PRIORITY →
    s.stale d e.ofMatch = false
  records : ∀ k ∈ s.ctl.trustTable.keys, s.tainted k = false

/-- The flush is done with the switch. -/
def Past (s : Interleaving) (d : ℕ) : Prop := s.passed d = true ∨ s.cleared = true

/-- The three ways to spoil the flush. -/
inductive Spoils (s : Interleaving) : Switching → Prop
  /-- An early packet is counted after the trust table was cleared. -/
  | count (i : ℕ) (h : Handler) (k : TrustKey) (hget : s.handlers[i]? = some h)
      (hcleared : s.cleared = true) (hearly : s.early h = true)
      (hcounts : s.CountsIn (h.prog.settle s.ctl).2 k) : Spoils s (.run i)
  /-- An entry that rests on an early packet is sent to a switch the flush is done with. -/
  | entry (i : ℕ) (fail : Option Exc) (h : Handler) (o : Effect) (k : Except Exc Unit → Fw Unit)
      (d : ℕ) (m : OFPMatch) (hget : s.handlers[i]? = some h) (htainted : h.tainted = true)
      (hprog : h.prog = .emit o k) (hadd : o.trustAdd? = some (d, m)) (hpast : s.Past d) :
      Spoils s (.act i fail)
  /-- A new switch is filed while the flush is in its loop. -/
  | switch (i : ℕ) (h : Handler) (hget : s.handlers[i]? = some h) (hadded : s.added = true)
      (hcleared : s.cleared = false)
      (hsize : (h.prog.settle s.ctl).2.datapaths.size ≠ s.ctl.datapaths.size) : Spoils s (.run i)

/-! ## The invariant -/

/-- A handler is a handshake about to start, or it is local to its connected switch. -/
def HandlerOk (c : FirewallApp) (h : Handler) : Prop :=
  h.prog = switchHandshakeHandler ⟨h.dpid⟩ ∨ h.dpid ∈ c.datapaths.keys ∧ Local h.dpid h.prog

/-- Where the call is in its loop over the switches, with `n` rounds to go from position `i` on. -/
inductive InLoop (datapaths : Dict ℕ Datapath) (name : String) : Fw Response → ℕ → ℕ → Prop
  /-- Between two rounds. -/
  | next (i n : ℕ) :
      InLoop datapaths name (inFlush name (forDatapathsFrom flushSwitch datapaths.size i n)) i n
  /-- At the delete of a round. -/
  | flush (i n d : ℕ) (k k' : Except Exc Unit → Fw Response) (hd : datapaths.keys[i]? = some d)
      (hk : k (.ok ()) = .emit (.sendMsg d refillMsg) k')
      (hk' : k' (.ok ()) =
        inFlush name (forDatapathsFrom flushSwitch datapaths.size (i + 1) n)) :
      InLoop datapaths name (.emit (.sendMsg d flushMsg) k) i (n + 1)
  /-- At the second message of the round before. -/
  | refill (i n d : ℕ) (k : Except Exc Unit → Fw Response) (hd : d ∈ datapaths.keys)
      (hk : k (.ok ()) = inFlush name (forDatapathsFrom flushSwitch datapaths.size i n)) :
      InLoop datapaths name (.emit (.sendMsg d refillMsg) k) i n

/-- How far the call has come. -/
inductive CallAt (compile : ReCompile) (body : Except Exc Json) (dpi : DPIEngine)
    (c : FirewallApp) (passed : ℕ → Bool) : Fw Response → (added cleared : Bool) → Prop
  | waiting (hdpi : c.dpi = dpi) :
      CallAt compile body dpi c passed (addDpiPattern compile body) false false
  | refused (call : Fw Response) (hended : call.Ended) (hdpi : c.dpi = dpi) :
      CallAt compile body dpi c passed call false false
  | looping (call : Fw Response) (name : String) (i n : ℕ) (hsize : i + n = c.datapaths.size)
      (hpassed : ∀ j < i, ∀ d, c.datapaths.keys[j]? = some d → passed d = true)
      (hloop : InLoop c.datapaths name call i n) : CallAt compile body dpi c passed call true false
  | logging (call : Fw Response) (hquiet : QuietCall call) :
      CallAt compile body dpi c passed call true true

/-- What holds as long as nothing spoils the flush. -/
structure Inv (compile : ReCompile) (body : Except Exc Json) (dpi : DPIEngine)
    (s : Interleaving) : Prop where
  keyed : s.ctl.Keyed
  unconnected : ∀ d, d ∉ s.ctl.datapaths.keys → s.tables d = []
  ipv4 : ∀ d, ∀ e ∈ s.tables d, e.priority = TRUST_FLOW_PRIORITY →
    e.ofMatch.ethType = some ETH_TYPE_IP
  handlers : ∀ h ∈ s.handlers, HandlerOk s.ctl h
  call : CallAt compile body dpi s.ctl s.passed s.call s.added s.cleared
  entries : ∀ d ∈ s.ctl.datapaths.keys, s.Past d → ∀ e ∈ s.tables d,
    e.priority = TRUST_FLOW_PRIORITY → s.stale d e.ofMatch = false
  records : s.cleared = true → ∀ k, s.tainted k = false

variable {compile : ReCompile} {body : Except Exc Json} {dpi : DPIEngine} {s : Interleaving}

/-- The invariant holds when the call begins. -/
theorem inv_start {w : World} (hw : w.Sound) :
    (start compile body w).Inv compile body w.ctl.dpi where
  keyed := hw.keyed
  unconnected := hw.unconnected
  ipv4 := fun d e he hp => by
    obtain ⟨proto, src, dst, port, -, rfl⟩ := (hw.known d e he).trust_of_priority hp
    exact trustMatch_ethType ..
  handlers := fun h hh => absurd hh List.not_mem_nil
  call := .waiting rfl
  entries := fun d _ hpast => by
    rcases hpast with h | h <;> exact absurd h (by simp [start])
  records := fun h => absurd h (by simp [start])

/-- What a handler does to the connections while the call is in its loop decides about the call. -/
theorem CallAt.of_wiring {c c' : FirewallApp} {passed : ℕ → Bool} {call : Fw Response}
    {added cleared : Bool} (h : CallAt compile body dpi c passed call added cleared)
    (hdpi : c'.dpi = c.dpi)
    (hpaths : added = true → cleared = false → c'.datapaths = c.datapaths) :
    CallAt compile body dpi c' passed call added cleared := by
  cases h with
  | waiting h => exact .waiting (hdpi.trans h)
  | refused _ hended h => exact .refused _ hended (hdpi.trans h)
  | looping _ name i n hsize hpassed hloop =>
      rw [← hpaths rfl rfl] at hsize hpassed hloop
      exact .looping _ name i n hsize hpassed hloop
  | logging _ hquiet => exact .logging _ hquiet

/-- A handler stays what it is while connections are only added. -/
theorem HandlerOk.mono {c c' : FirewallApp} {h : Handler} (hok : HandlerOk c h)
    (hkeys : ∀ d ∈ c.datapaths.keys, d ∈ c'.datapaths.keys) : HandlerOk c' h :=
  hok.imp_right fun hlocal => ⟨hkeys _ hlocal.1, hlocal.2⟩

/-! ## The handlers -/

/-- A section of a handler leaves the signatures alone, and the connections too unless it is the
first one of the handshake of a new switch. -/
theorem HandlerOk.settle {c : FirewallApp} (hkeyed : c.Keyed) {h : Handler} (hok : HandlerOk c h) :
    (h.prog.settle c).2.dpi = c.dpi ∧
      ((h.prog.settle c).2.datapaths = c.datapaths ∨ h.dpid ∉ c.datapaths.keys ∧
        (h.prog.settle c).2.datapaths = c.datapaths.set h.dpid ⟨h.dpid⟩) ∧
      h.dpid ∈ (h.prog.settle c).2.datapaths.keys ∧ Local h.dpid (h.prog.settle c).1 := by
  -- the handler is a handshake at its start, or past it and tied to its switch
  rcases hok with hprog | ⟨hmem, hlocal⟩
  · obtain ⟨hstate, hlocal⟩ := settle_switchHandshakeHandler ⟨h.dpid⟩ c
    rw [hprog]
    refine ⟨by rw [hstate], ?_, ?_, hlocal⟩
    · rw [hstate]
      by_cases hmem : h.dpid ∈ c.datapaths.keys
      · -- the switch is filed under its number already
        refine Or.inl ?_
        obtain ⟨kv, hkv, hkey⟩ := List.mem_map.mp hmem
        have hdp : kv = (h.dpid, ⟨h.dpid⟩) := by
          refine Prod.ext hkey ?_
          have hid := hkeyed kv hkv
          rw [hkey] at hid
          cases hvalue : kv.2 with
          | mk id =>
              rw [hvalue] at hid
              exact congrArg Datapath.mk hid
        exact Dict.set_eq_self (Dict.get?_eq_some_iff.mpr (hdp ▸ hkv))
      · exact Or.inr ⟨hmem, rfl⟩
    · rw [hstate]
      exact Dict.mem_keys_set.mpr (Or.inl rfl)
  · obtain ⟨hwiring, hrest⟩ := (hlocal.framedAt c).settle
    have hpaths : (h.prog.settle c).2.datapaths = c.datapaths := congrArg Prod.fst hwiring
    exact ⟨congrArg (fun wiring => wiring.2.1) hwiring, Or.inl hpaths, hpaths ▸ hmem, hrest⟩

/-- A handler that is started changes nothing yet. -/
theorem Inv.spawn (hI : s.Inv compile body dpi) {h : Handler} (hok : HandlerOk s.ctl h) :
    ({ s with handlers := s.handlers ++ [h] } : Interleaving).Inv compile body dpi where
  keyed := hI.keyed
  unconnected := hI.unconnected
  ipv4 := hI.ipv4
  handlers := fun h' hh' => by
    rcases List.mem_append.mp hh' with hold | hnew
    · exact hI.handlers h' hold
    · exact List.mem_singleton.mp hnew ▸ hok
  call := hI.call
  entries := hI.entries
  records := hI.records

/-- A handler that goes on keeps it, if it does not spoil it. -/
theorem Inv.runHandler (hI : s.Inv compile body dpi) {i : ℕ} {h : Handler}
    (hget : s.handlers[i]? = some h) (hspoils : ¬ s.Spoils (.run i)) :
    (s.runHandler i h).Inv compile body dpi := by
  obtain ⟨hdpi, hpaths, hmem, hlocal⟩ :=
    (hI.handlers h (List.mem_of_getElem? hget)).settle hI.keyed
  have hkeys : ∀ d ∈ s.ctl.datapaths.keys, d ∈ (h.prog.settle s.ctl).2.datapaths.keys := by
    intro d hd
    rcases hpaths with hsame | ⟨-, hset⟩
    · rwa [hsame]
    · rw [hset]
      exact Dict.mem_keys_set.mpr (Or.inr hd)
  refine ⟨?_, fun d hd => hI.unconnected d fun hold => hd (hkeys d hold), hI.ipv4, ?_, ?_, ?_, ?_⟩
  · rcases hpaths with hsame | ⟨-, hset⟩
    · exact keyed_of_datapaths hsame hI.keyed
    · exact keyed_of_datapaths_set hset hI.keyed
  · intro h' hh'
    rcases List.mem_or_eq_of_mem_set hh' with hold | rfl
    · exact (hI.handlers h' hold).mono hkeys
    · exact Or.inr ⟨hmem, hlocal⟩
  · -- no switch is new while the flush is in its loop
    refine hI.call.of_wiring hdpi fun hadded hcleared => ?_
    rcases hpaths with hsame | ⟨hnew, hset⟩
    · exact hsame
    · refine absurd (Spoils.switch i h hget hadded hcleared ?_) hspoils
      rw [hset, Dict.size_set_of_not_mem _ hnew]
      exact Nat.succ_ne_self _
  · intro d _ hpast e he hp
    by_cases hd : d ∈ s.ctl.datapaths.keys
    · exact hI.entries d hd hpast e he hp
    · -- a new switch comes with an empty table
      rw [show (s.runHandler i h).tables d = [] from hI.unconnected d hd] at he
      exact absurd he List.not_mem_nil
  · intro hcleared k
    show s.taintedAfter _ _ k = false
    rw [taintedAfter]
    split
    · rfl
    split
    · rename_i hcounts
      -- once the table is cleared, an early packet that is counted would spoil the run
      rw [hI.records hcleared k, Bool.false_or, Bool.eq_false_iff]
      exact fun hearly => hspoils (.count i h k hget hcleared hearly hcounts)
    · exact hI.records hcleared k

/-- An entry of the trust priority that an action installs is the one it adds. -/
theorem trustAdd?_of_installs {d : ℕ} {m : OFPMsg} {e : FlowEntry} (h : m.installs? = some e)
    (hp : e.priority = TRUST_FLOW_PRIORITY) :
    (Effect.sendMsg d m).trustAdd? = some (d, e.ofMatch) := by
  cases m with
  | packetOut out => cases h
  | flowMod mod =>
      simp only [OFPMsg.installs?, Option.ite_none_right_eq_some, Option.some.injEq] at h
      obtain ⟨hadd, rfl⟩ := h
      exact if_pos ⟨hadd, hp⟩

/-- An entry found after an action was there before or the action installs it. -/
theorem mem_applied {o : Effect} {tables : ℕ → FlowTable} {d : ℕ} {e : FlowEntry}
    (h : e ∈ o.applied tables d) :
    e ∈ tables d ∨ ∃ m, o = .sendMsg d m ∧ m.installs? = some e := by
  cases o with
  | broadcast j => exact Or.inl h
  | sendMsg d' m =>
      by_cases hd : d = d'
      · subst hd
        rw [Effect.applied, Function.update_self] at h
        exact (FlowTable.mem_apply h).imp_right fun hinst => ⟨m, rfl, hinst⟩
      · rw [Effect.applied, Function.update_of_ne hd] at h
        exact Or.inl h

/-- A handler that waits at an action is local to its connected switch. -/
theorem HandlerOk.emit {c : FirewallApp} {h : Handler} (hok : HandlerOk c h) {o : Effect}
    {k : Except Exc Unit → Fw Unit} (hprog : h.prog = .emit o k) :
    h.dpid ∈ c.datapaths.keys ∧ o.LocalTo h.dpid ∧ ∀ r, Local h.dpid (k r) := by
  rcases hok with hstart | ⟨hmem, hlocal⟩
  · rw [hstart] at hprog
    cases hprog
  · rw [hprog] at hlocal
    have : Nonempty FirewallApp := ⟨c⟩
    exact ⟨hmem, hlocal.emit⟩

/-- So does one whose outward action is done. -/
theorem Inv.actHandler (hI : s.Inv compile body dpi) {i : ℕ} {h : Handler}
    (hget : s.handlers[i]? = some h) {fail : Option Exc} (hspoils : ¬ s.Spoils (.act i fail)) :
    (s.actHandler i h fail).Inv compile body dpi := by
  unfold Interleaving.actHandler
  split
  swap
  · exact hI
  rename_i o k hprog
  obtain ⟨hmem, hlocal, hrest⟩ := (hI.handlers h (List.mem_of_getElem? hget)).emit hprog
  -- what the action puts into a table is put into the table of the handler's switch
  have htable : ∀ d e, e ∈ o.applied s.tables d → e ∈ s.tables d ∨
      d = h.dpid ∧ ∃ m, o = .sendMsg d m ∧ m.installs? = some e := by
    intro d e he
    rcases mem_applied he with hold | ⟨m, ho, hinst⟩
    · exact Or.inl hold
    · rw [ho] at hlocal
      exact Or.inr ⟨hlocal.1, m, ho, hinst⟩
  refine ⟨hI.keyed, fun d hd => ?_, fun d e he hp => ?_, fun h' hh' => ?_, hI.call, ?_, hI.records⟩
  · refine List.eq_nil_iff_forall_not_mem.mpr fun e he => ?_
    rcases htable d e he with hold | ⟨rfl, -⟩
    · rw [hI.unconnected d hd] at hold
      exact absurd hold List.not_mem_nil
    · exact hd hmem
  · rcases htable d e he with hold | ⟨-, m, rfl, hinst⟩
    · exact hI.ipv4 d e hold hp
    · exact hlocal.2 e hinst hp
  · rcases List.mem_or_eq_of_mem_set hh' with hold | rfl
    · exact hI.handlers h' hold
    · exact Or.inr ⟨hmem, hrest _⟩
  · intro d hd hpast e he hp
    show (if o.trustAdd? = some (d, e.ofMatch) then h.tainted else s.stale d e.ofMatch) = false
    split
    · rename_i hadd
      rw [Bool.eq_false_iff]
      exact fun htainted => hspoils (.entry i fail h o k d _ hget htainted hprog hadd hpast)
    · rename_i hadd
      rcases htable d e he with hold | ⟨-, m, rfl, hinst⟩
      · exact hI.entries d hd hpast e hold hp
      · exact absurd (trustAdd?_of_installs hinst hp) hadd

/-! ## The call -/

/-- A section of the call that starts between two rounds comes to the next delete, or the table of
trust is empty behind it. -/
theorem settle_loop {c : FirewallApp} (hkeyed : c.Keyed) (name : String) {i n : ℕ}
    (hsize : i + n = c.datapaths.size) {r : Fw Response × FirewallApp}
    (hr : (inFlush name (forDatapathsFrom flushSwitch c.datapaths.size i n)).settle c = r) :
    AtBroadcast r.1 = false ∧ InLoop c.datapaths name r.1 i n ∧ r.2 = c ∨
      AtBroadcast r.1 = true ∧ n = 0 ∧ QuietCall r.1 ∧ r.2.datapaths = c.datapaths ∧
        r.2.dpi = c.dpi ∧ ∀ k, r.2.trustTable.get? k = none := by
  subst hr
  cases n with
  | zero =>
      -- no round is left: the table is cleared and the section ends at the log call
      obtain ⟨o, k, hsettle, hbroadcast, hquiet⟩ := settle_clear name c i
      rw [hsettle]
      refine Or.inr ⟨?_, rfl, hquiet, rfl, rfl, fun key => ?_⟩
      · cases o with
        | broadcast => rfl
        | sendMsg => exact hbroadcast.elim
      · show (c.trustTable.filterKeys _).get? key = none
        rw [Dict.get?_filterKeys]
        simp
  | succ n =>
      have hi : i < c.datapaths.entries.length := by
        have hlength : c.datapaths.entries.length = c.datapaths.size := rfl
        omega
      have hvalue : c.datapaths.values[i]? = some (c.datapaths.entries[i]).2 := by
        rw [Dict.values, List.getElem?_map, List.getElem?_eq_getElem hi]
        rfl
      have hkey : c.datapaths.keys[i]? = some (c.datapaths.entries[i]).2.id := by
        rw [hkeyed _ (List.getElem_mem hi), Dict.keys, List.getElem?_map,
          List.getElem?_eq_getElem hi]
        rfl
      obtain ⟨k, hsettle, k', hk, hk'⟩ := settle_round name (n := n) hvalue
      rw [hsettle]
      exact Or.inl ⟨rfl, .flush i n _ k k' hkey hk hk', rfl⟩

/-- The same for where the call then is. -/
theorem CallAt.of_loop (compile : ReCompile) (body : Except Exc Json) (dpi : DPIEngine)
    {c : FirewallApp} (hkeyed : c.Keyed) (passed : ℕ → Bool) {name : String} {i n : ℕ}
    (hsize : i + n = c.datapaths.size)
    (hpassed : ∀ j < i, ∀ d, c.datapaths.keys[j]? = some d → passed d = true)
    {r : Fw Response × FirewallApp}
    (hr : (inFlush name (forDatapathsFrom flushSwitch c.datapaths.size i n)).settle c = r) :
    CallAt compile body dpi r.2 passed r.1 true (AtBroadcast r.1) ∧ r.2.datapaths = c.datapaths ∧
      r.2.dpi = c.dpi ∧ (AtBroadcast r.1 = true →
        (∀ d ∈ c.datapaths.keys, passed d = true) ∧ ∀ k, r.2.trustTable.get? k = none) := by
  rcases settle_loop hkeyed name hsize hr with ⟨hat, hloop, hstate⟩ |
    ⟨hat, rfl, hquiet, hpaths, hdpi, hempty⟩
  · rw [hat, hstate]
    exact ⟨.looping _ name i n hsize hpassed hloop, rfl, rfl, fun h => absurd h Bool.false_ne_true⟩
  · rw [hat]
    refine ⟨.logging _ hquiet, hpaths, hdpi, fun _ => ⟨fun d hd => ?_, hempty⟩⟩
    obtain ⟨j, hj, hget⟩ := List.mem_iff_getElem.mp hd
    rw [Dict.length_keys] at hj
    exact hpassed j (by omega) d (List.getElem?_eq_some_iff.mpr ⟨_, hget⟩)

/-- A section of the call leaves the connections alone. Behind the one that clears the trust table
the flush is done with every switch. -/
theorem CallAt.run {c : FirewallApp} (hkeyed : c.Keyed) {passed : ℕ → Bool} {call : Fw Response}
    {added cleared added' cleared' : Bool}
    (h : CallAt compile body dpi c passed call added cleared) {r : Fw Response × FirewallApp}
    (hr : call.settle c = r)
    (hadded : added' = (added || decide (c.dpi.patterns.length < r.2.dpi.patterns.length)))
    (hcleared : cleared' = (cleared || added' && AtBroadcast r.1)) :
    CallAt compile body dpi r.2 passed r.1 added' cleared' ∧ r.2.datapaths = c.datapaths ∧
      (cleared' = true → cleared = true ∨ (∀ d ∈ c.datapaths.keys, passed d = true) ∧
        ∀ k, r.2.trustTable.get? k = none) := by
  -- by where the call stands: each section ends at the next broadcast or message
  cases h with
  | waiting hdpi =>
      rcases settle_addDpiPattern compile body c with
        ⟨hended, hstate⟩ | ⟨dpi', pattern, hlast, hsettle⟩
      -- the body is refused, so the call is over and the list is as it was
      · rw [hr] at hended hstate
        rw [hstate] at hadded ⊢
        simp only [lt_irrefl, decide_false, Bool.or_false] at hadded
        simp only [hadded, Bool.false_and, Bool.or_false] at hcleared
        rw [hadded, hcleared]
        exact ⟨.refused _ hended hdpi, rfl, fun h => absurd h Bool.false_ne_true⟩
      · -- the section runs on into the loop, with the signature in the list
        rw [hr, settle_forDatapaths] at hsettle
        have hkeyed' : ({ c with dpi := dpi' } : FirewallApp).Keyed := hkeyed
        obtain ⟨hcall, hpaths, hdpi', hdone⟩ := CallAt.of_loop compile body dpi hkeyed' passed
          (Nat.zero_add _) (fun j hj => absurd hj (Nat.not_lt_zero j)) hsettle.symm
        have hlonger : c.dpi.patterns.length < r.2.dpi.patterns.length := by
          rw [hdpi', hlast, List.length_append]
          exact Nat.lt_succ_self _
        rw [decide_eq_true hlonger, Bool.or_true] at hadded
        rw [hadded, Bool.true_and, Bool.false_or] at hcleared
        rw [hadded, hcleared]
        exact ⟨hcall, hpaths, fun h => Or.inr (hdone h)⟩
  | refused _ hended hdpi =>
      rw [Prog.settle_of_ended hended] at hr
      subst hr
      simp only [lt_irrefl, decide_false, Bool.or_false] at hadded
      simp only [hadded, Bool.false_and, Bool.or_false] at hcleared
      rw [hadded, hcleared]
      exact ⟨.refused _ hended hdpi, rfl, fun h => absurd h Bool.false_ne_true⟩
  | looping _ name i n hsize hpassed hloop =>
      rw [Bool.true_or] at hadded
      rw [hadded, Bool.true_and, Bool.false_or] at hcleared
      rw [hadded, hcleared]
      cases hloop with
      | next =>
          obtain ⟨hcall, hpaths, -, hdone⟩ :=
            CallAt.of_loop compile body dpi hkeyed passed hsize hpassed hr
          exact ⟨hcall, hpaths, fun h => Or.inr (hdone h)⟩
      | flush _ n d k k' hd hk hk' =>
          subst hr
          exact ⟨.looping _ name i _ hsize hpassed (.flush i n d k k' hd hk hk'), rfl,
            fun h => absurd h Bool.false_ne_true⟩
      | refill _ _ d k hd hk =>
          subst hr
          exact ⟨.looping _ name i n hsize hpassed (.refill i n d k hd hk), rfl,
            fun h => absurd h Bool.false_ne_true⟩
  | logging _ hquiet =>
      -- the table is cleared already, and what is left only logs
      obtain ⟨hcore, hrest⟩ := (hquiet.framedAt c).settle
      rw [hr] at hcore hrest
      rw [Bool.true_or] at hadded hcleared
      rw [hadded, hcleared]
      exact ⟨.logging _ hrest, congrArg (fun c => c.datapaths) hcore, fun _ => Or.inl rfl⟩

/-- The call itself keeps it in each of its sections. -/
theorem Inv.runCall (hI : s.Inv compile body dpi) : s.runCall.Inv compile body dpi := by
  obtain ⟨hcall, hpaths, hdone⟩ := hI.call.run hI.keyed rfl rfl rfl
  refine ⟨keyed_of_datapaths hpaths hI.keyed, fun d hd => hI.unconnected d ?_, hI.ipv4,
    fun h hh => ?_, hcall, fun d hd hpast => ?_, fun hcleared k => ?_⟩
  · rwa [← hpaths]
  · exact (hI.handlers h hh).mono fun d hd => by rwa [show s.runCall.ctl.datapaths = _ from hpaths]
  · rw [show s.runCall.ctl.datapaths = _ from hpaths] at hd
    refine hI.entries d hd ?_
    rcases hpast with hpassed | hcleared
    · exact Or.inl hpassed
    · exact (hdone hcleared).elim Or.inr fun h => Or.inl (h.1 d hd)
  · show s.taintedAfter _ false k = false
    rw [taintedAfter, Bool.or_false, ite_self]
    rcases hdone hcleared with hold | ⟨-, hempty⟩
    · rw [hI.records hold k, ite_self]
    · exact if_pos (hempty k)

/-- A call that waits in its loop waits at one of the two messages of a round. -/
theorem CallAt.act {c : FirewallApp} {passed : ℕ → Bool} {o : Effect}
    {k : Except Exc Unit → Fw Response} {added cleared : Bool}
    (h : CallAt compile body dpi c passed (.emit o k) added cleared) (fail : Option Exc) :
    (o.IsBroadcast ∨ ∃ d ∈ c.datapaths.keys, o = .sendMsg d flushMsg ∨ o = .sendMsg d refillMsg) ∧
      CallAt compile body dpi c (fun d => passed d || decide (o.deletesAt? = some d))
        (k (o.result fail)) added cleared := by
  generalize hcall : Prog.emit o k = call at h
  cases h with
  | waiting => exact absurd hcall.symm (addDpiPattern_ne_emit _ _ _ _)
  | refused _ hended =>
      rw [← hcall] at hended
      exact hended.elim
  | logging _ hquiet =>
      rw [← hcall] at hquiet
      have : Nonempty FirewallApp := ⟨c⟩
      exact ⟨Or.inl hquiet.emit.1, .logging _ (hquiet.emit.2 _)⟩
  | looping _ name i n hsize hpassed hloop =>
      have hpassed' : ∀ j < i, ∀ d, c.datapaths.keys[j]? = some d →
          (passed d || decide (o.deletesAt? = some d)) = true := fun j hj d hd => by
        rw [hpassed j hj d hd, Bool.true_or]
      -- between its two messages a round is at the second, and behind them at the next round
      cases hloop with
      | next => cases n <;> cases hcall
      | flush _ n d k' k'' hd hk hk' =>
          obtain ⟨rfl, rfl⟩ := Prog.emit.inj hcall
          refine ⟨Or.inr ⟨d, List.mem_of_getElem? hd, Or.inl rfl⟩,
            .looping _ name (i + 1) n (by omega) (fun j hj d' hd' => ?_) ?_⟩
          · -- the switch of this round is the next one the flush is done with
            rcases Nat.lt_succ_iff_lt_or_eq.mp hj with hj | rfl
            · exact hpassed' j hj d' hd'
            · rw [hd] at hd'
              obtain rfl : d = d' := Option.some.inj hd'
              rw [Bool.or_eq_true]
              exact Or.inr (decide_eq_true rfl)
          · show InLoop _ name (k (.ok ())) (i + 1) n
            rw [hk]
            exact .refill (i + 1) n d k'' (List.mem_of_getElem? hd) hk'
      | refill _ _ d k' hd hk =>
          obtain ⟨rfl, rfl⟩ := Prog.emit.inj hcall
          refine ⟨Or.inr ⟨d, hd, Or.inr rfl⟩, .looping _ name i n hsize hpassed' ?_⟩
          show InLoop _ name (k (.ok ())) i n
          rw [hk]
          exact .next i n

/-- And at each of its outward actions, even if one raises. -/
theorem Inv.actCall (hI : s.Inv compile body dpi) (fail : Option Exc) :
    (s.actCall fail).Inv compile body dpi := by
  unfold Interleaving.actCall
  split
  swap
  · exact hI
  rename_i o k hcall
  have hat := hI.call
  rw [hcall] at hat
  obtain ⟨ho, hnext⟩ := hat.act fail
  -- what the call sends installs nothing but the catch-all, at connected switches
  have htable : ∀ d e, e ∈ o.applied s.tables d → e ∈ s.tables d ∨
      d ∈ s.ctl.datapaths.keys ∧ e.priority ≠ TRUST_FLOW_PRIORITY := by
    intro d e he
    refine (mem_applied he).imp_right ?_
    rintro ⟨m, rfl, hinst⟩
    rcases ho with hbroadcast | ⟨d', hd', heq | heq⟩
    · exact hbroadcast.elim
    · cases heq
      cases hinst
    · cases heq
      cases hinst
      exact ⟨hd', by decide⟩
  refine ⟨hI.keyed, fun d hd => ?_, fun d e he hp => ?_, hI.handlers, hnext, ?_, hI.records⟩
  · refine List.eq_nil_iff_forall_not_mem.mpr fun e he => ?_
    rcases htable d e he with hold | ⟨hmem, -⟩
    · rw [hI.unconnected d hd] at hold
      exact absurd hold List.not_mem_nil
    · exact hd hmem
  · exact (htable d e he).elim (fun hold => hI.ipv4 d e hold hp) fun h => absurd hp h.2
  · intro d hd hpast e (he : e ∈ o.applied s.tables d) hp
    have hold : e ∈ s.tables d := (htable d e he).resolve_right fun h => h.2 hp
    rcases hpast with hpassed | hcleared
    swap
    · exact hI.entries d hd (Or.inr hcleared) e hold hp
    rcases Bool.or_eq_true _ _ |>.mp hpassed with hbefore | hnow
    · exact hI.entries d hd (Or.inl hbefore) e hold hp
    · -- the delete leaves no entry of the trust priority
      exfalso
      have hdelete := of_decide_eq_true hnow
      rcases ho with hbroadcast | ⟨d', -, rfl | rfl⟩
      · cases o with
        | broadcast => cases hdelete
        | sendMsg => exact hbroadcast
      · obtain rfl : d' = d := Option.some.inj hdelete
        rw [Effect.applied, Function.update_self] at he
        exact (FlowTable.mem_delete_any.mp he).2 (ipv4Match_covers.mpr (hI.ipv4 _ e hold hp))
      · cases hdelete

/-- And an entry that expires. -/
theorem Inv.expire (hI : s.Inv compile body dpi) (d : ℕ) (e : FlowEntry) :
    (s.step (.expire d e)).Inv compile body dpi := by
  have htable : ∀ d' e', e' ∈ (s.step (.expire d e)).tables d' → e' ∈ s.tables d' := by
    intro d' e' he'
    by_cases hd : d' = d
    · subst hd
      rw [show (s.step (.expire d' e)).tables d' = (s.tables d').expire e from
        Function.update_self ..] at he'
      exact FlowTable.mem_of_mem_expire he'
    · rwa [show (s.step (.expire d e)).tables d' = s.tables d' from
        Function.update_of_ne hd ..] at he'
  refine ⟨hI.keyed, fun d' hd' => ?_, fun d' e' he' => hI.ipv4 d' e' (htable d' e' he'),
    hI.handlers, hI.call, fun d' hd' hpast e' he' => hI.entries d' hd' hpast e' (htable d' e' he'),
    hI.records⟩
  refine List.eq_nil_iff_forall_not_mem.mpr fun e' he' => ?_
  have hold := htable d' e' he'
  rw [hI.unconnected d' hd'] at hold
  exact List.not_mem_nil hold

/-- An event that does not spoil the flush keeps the invariant. -/
theorem Inv.step (hI : s.Inv compile body dpi) {ev : Switching} (hspoils : ¬ s.Spoils ev) :
    (s.step ev).Inv compile body dpi := by
  cases ev with
  | packetIn d now msg =>
      rw [Interleaving.step]
      split
      · rename_i hd
        exact hI.spawn (Or.inr ⟨hd, packetInHandler_local ⟨d⟩ now msg⟩)
      · exact hI
  | handshake d => exact hI.spawn (Or.inl rfl)
  | run i =>
      rw [Interleaving.step]
      split
      · rename_i h hget
        exact hI.runHandler hget hspoils
      · exact hI
  | act i fail =>
      rw [Interleaving.step]
      split
      · rename_i h hget
        exact hI.actHandler hget hspoils
      · exact hI
  | callRun => exact hI.runCall
  | callAct fail => exact hI.actCall fail
  | expire d e => exact hI.expire d e

/-! ## Runs -/

/-- The call is over with its signature in the list, and so are the handlers. -/
structure Over (dpi : DPIEngine) (s : Interleaving) : Prop where
  call : s.call.Ended
  added : dpi.patterns.length < s.ctl.dpi.patterns.length
  handlers : ∀ h ∈ s.handlers, h.prog.Ended

/-- A call that is over and has added its signature has cleared the trust table. -/
theorem CallAt.cleared_of_ended {c : FirewallApp} {passed : ℕ → Bool} {call : Fw Response}
    {added cleared : Bool} (h : CallAt compile body dpi c passed call added cleared)
    (hended : call.Ended) (hadded : dpi.patterns.length < c.dpi.patterns.length) :
    cleared = true := by
  cases h with
  | waiting hdpi => exact absurd hadded (by rw [hdpi]; exact lt_irrefl _)
  | refused _ _ hdpi => exact absurd hadded (by rw [hdpi]; exact lt_irrefl _)
  | logging => rfl
  | looping _ name i n _ _ hloop =>
      cases hloop with
      | next => cases n <;> exact hended.elim
      | flush => exact hended.elim
      | refill => exact hended.elim

/-- In a run that nothing spoils, no trust rests on earlier inspections once the call is over. -/
theorem fresh_run (compile : ReCompile) (dpi : DPIEngine) (before : List Event)
    (body : Except Exc Json) {evs : List Switching}
    (hrun : Along step (fun s ev => ¬ s.Spoils ev)
      (start compile body (World.run compile dpi before)) evs)
    (hover : (runFrom step (start compile body (World.run compile dpi before)) evs).Over
      (World.run compile dpi before).ctl.dpi) :
    (runFrom step (start compile body (World.run compile dpi before)) evs).Fresh := by
  have hI := hrun.invariant (Inv compile body (World.run compile dpi before).ctl.dpi)
    (fun _ _ hI hev => hI.step hev) (inv_start (World.sound_run compile dpi before))
  have hcleared := hI.call.cleared_of_ended hover.call hover.added
  exact ⟨fun d hd => hI.entries d hd (Or.inr hcleared), fun k _ => hI.records hcleared k⟩

/-- Before the table is cleared, a section that files no switch spoils nothing. -/
theorem not_spoils_run {i : ℕ} (hcleared : s.cleared = false)
    (hsize : ∀ h ∈ s.handlers[i]?,
      (h.prog.settle s.ctl).2.datapaths.size = s.ctl.datapaths.size) : ¬ s.Spoils (.run i) := by
  intro hspoils
  cases hspoils with
  | count _ h k _ hcleared' => exact absurd (hcleared.symm.trans hcleared') Bool.false_ne_true
  | switch _ h hget _ _ hne => exact hne (hsize h hget)

/-- An entry of a handler that rests on no early packet spoils nothing. -/
theorem not_spoils_act {i : ℕ} {fail : Option Exc}
    (htainted : ∀ h ∈ s.handlers[i]?, h.tainted = false) : ¬ s.Spoils (.act i fail) := by
  intro hspoils
  cases hspoils with
  | entry _ _ h _ _ _ _ hget htainted' =>
      exact absurd ((htainted h hget).symm.trans htainted') Bool.false_ne_true

/-- A switch that has learned host 2. -/
def learnedWorld : World :=
  .run builtinCompile builtinEngine
    [.handshake 1, .packetIn 1 0 (packetInFrom 2 (arpFrame 2 1 2))]

/-- The body of a request for a new signature. -/
def newSignature : Json := .obj [("name", .str "marker"), ("pattern", .str "marker")]

/-- A segment of host 1 is being forwarded when the signature is added. -/
def earlySegment : List Switching :=
  [.packetIn 1 0 (packetInFrom 1 (tcpFrame 1 2 100 80 [0x6d])), .run 0]

/-- The call goes on undisturbed. -/
def callAlone : List Switching :=
  (List.replicate 6 [Switching.callRun, Switching.callAct none]).flatten ++ [Switching.callRun]

/-- When the call runs alone, its steps are these two. -/
theorem mem_callAlone {ev : Switching} (h : ev ∈ callAlone) :
    ev = .callRun ∨ ev = .callAct none := by
  simp only [callAlone, List.mem_append, List.mem_flatten, List.mem_replicate,
    List.mem_singleton] at h
  rcases h with ⟨_, ⟨-, rfl⟩, h⟩ | h
  · simpa using h
  · exact Or.inl h

/-- The segment is counted while the flush is at its first switch. -/
def earlyCount : List Switching :=
  earlySegment ++ [Switching.callRun, Switching.act 0 none, Switching.run 0] ++ callAlone

/-- The flush takes the count with it. -/
theorem fresh_run_earlyCount :
    (runFrom step (start builtinCompile (.ok newSignature) learnedWorld) earlyCount).Fresh := by
  refine fresh_run builtinCompile builtinEngine _ (.ok newSignature) ?_
    ⟨by decide +kernel, by decide +kernel, by decide +kernel⟩
  refine ⟨by rintro ⟨⟩, not_spoils_run (by decide +kernel) (by decide +kernel), by rintro ⟨⟩,
    not_spoils_act (by decide +kernel), not_spoils_run (by decide +kernel) (by decide +kernel), ?_⟩
  refine (along_of_forall_mem step (P := fun ev => ∀ s : Interleaving, ¬ s.Spoils ev) ?_ _).imp
    fun s _ h => h s
  intro ev hev s
  rcases mem_callAlone hev with rfl | rfl <;> exact fun h => nomatch h

/-- The segment is counted once the call is over. -/
def lateCount : List Switching :=
  earlySegment ++ callAlone ++ [Switching.act 0 none, Switching.run 0]

/-- The packet was inspected without the signature, and its count stays. -/
theorem not_fresh_lateCount :
    let s := runFrom step (start builtinCompile (.ok newSignature) learnedWorld) lateCount
    s.Over learnedWorld.ctl.dpi ∧ ¬ s.Fresh := by
  refine ⟨⟨by decide +kernel, by decide +kernel, by decide +kernel⟩, fun h => ?_⟩
  have hrecords : ∃ k ∈ (runFrom step (start builtinCompile (.ok newSignature) learnedWorld)
      lateCount).ctl.trustTable.keys,
      (runFrom step (start builtinCompile (.ok newSignature) learnedWorld)
        lateCount).tainted k = true := by decide +kernel
  obtain ⟨k, hk, htainted⟩ := hrecords
  rw [h.records k hk] at htainted
  cases htainted

end Interleaving

end SdnFirewall
