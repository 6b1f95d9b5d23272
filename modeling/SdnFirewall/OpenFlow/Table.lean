import Mathlib.Data.List.Basic
import Mathlib.Data.Nat.Basic

/-!
# OpenFlow 1.3 flow tables

The messages a controller sends and what one flow table makes of them: adding an entry replaces
the one with the same match and priority, a non-strict delete removes every entry at least as
specific as its match, and the highest-priority matching entry decides a frame. Matches are on
exact values; a missing field is a wildcard.
-/

namespace OpenFlow

def OFPP_MAX : ℕ := 0xffffff00
def OFPP_FLOOD : ℕ := 0xfffffffb
def OFPP_CONTROLLER : ℕ := 0xfffffffd
def OFPP_LOCAL : ℕ := 0xfffffffe
def OFPP_ANY : ℕ := 0xffffffff
def OFPG_ANY : ℕ := 0xffffffff
def OFPCML_MAX : ℕ := 0xffe5
def OFP_NO_BUFFER : ℕ := 0xffffffff
def OFP_DEFAULT_PRIORITY : ℕ := 0x8000

/-- The ports a switch can name as ingress port: its own ports and the local port. -/
structure IngressPort where
  no : ℕ
  valid : (1 ≤ no ∧ no ≤ OFPP_MAX) ∨ no = OFPP_LOCAL
deriving DecidableEq

/-- No frame comes in by the port that stands for all. -/
theorem IngressPort.ne_flood (p : IngressPort) : p.no ≠ OFPP_FLOOD := by
  rcases p.valid with h | h
  · simp only [OFPP_MAX, OFPP_FLOOD] at *; omega
  · rw [h]; decide

/-- Nor by the one that stands for the controller. -/
theorem IngressPort.ne_controller (p : IngressPort) : p.no ≠ OFPP_CONTROLLER := by
  rcases p.valid with h | h
  · simp only [OFPP_MAX, OFPP_CONTROLLER] at *; omega
  · rw [h]; decide

/-! ## Matches -/

/-- The fields of a match, or the header fields a frame shows to the switch. -/
@[ext]
structure OFPMatch where
  inPort : Option ℕ := none
  ethDst : Option String := none
  ethSrc : Option String := none
  ethType : Option ℕ := none
  ipProto : Option ℕ := none
  ipv4Src : Option String := none
  ipv4Dst : Option String := none
  tcpSrc : Option ℕ := none
  tcpDst : Option ℕ := none
  udpSrc : Option ℕ := none
  udpDst : Option ℕ := none
  arpSpa : Option String := none
deriving DecidableEq

/-- The header fields of a frame as the switch classifies it. -/
abbrev FlowKey := OFPMatch

/-- One field of a match against one field of something more specific. -/
def FieldCovers {α : Type*} (a b : Option α) : Prop := a = none ∨ a = b

instance {α : Type*} [DecidableEq α] (a b : Option α) : Decidable (FieldCovers a b) :=
  inferInstanceAs (Decidable (_ ∨ _))

/-- A field that leaves as much open as another leaves as much open as what that one covers. -/
theorem FieldCovers.trans {α : Type*} {a b c : Option α} (hab : FieldCovers a b)
    (hbc : FieldCovers b c) : FieldCovers a c := by
  rcases hab with h | rfl
  · exact Or.inl h
  · exact hbc

@[simp] theorem fieldCovers_none {α : Type*} (b : Option α) : FieldCovers none b := Or.inl rfl

@[simp] theorem fieldCovers_some {α : Type*} {a : α} {b : Option α} :
    FieldCovers (some a) b ↔ b = some a := by
  simp [FieldCovers, eq_comm]

namespace OFPMatch

/-- `m` covers `k`: every field `m` names has that value in `k`. For a frame this is matching;
for a table entry it says that the entry is at least as specific as `m`. -/
def Covers (m k : OFPMatch) : Prop :=
  FieldCovers m.inPort k.inPort ∧ FieldCovers m.ethDst k.ethDst ∧
  FieldCovers m.ethSrc k.ethSrc ∧ FieldCovers m.ethType k.ethType ∧
  FieldCovers m.ipProto k.ipProto ∧ FieldCovers m.ipv4Src k.ipv4Src ∧
  FieldCovers m.ipv4Dst k.ipv4Dst ∧ FieldCovers m.tcpSrc k.tcpSrc ∧
  FieldCovers m.tcpDst k.tcpDst ∧ FieldCovers m.udpSrc k.udpSrc ∧
  FieldCovers m.udpDst k.udpDst ∧ FieldCovers m.arpSpa k.arpSpa

instance (m k : OFPMatch) : Decidable (m.Covers k) :=
  inferInstanceAs (Decidable (_ ∧ _))

/-- A match covers itself. -/
theorem Covers.refl (m : OFPMatch) : m.Covers m := by
  simp [Covers, FieldCovers]

/-- Covering is transitive. -/
theorem Covers.trans {a b c : OFPMatch} (hab : a.Covers b) (hbc : b.Covers c) : a.Covers c := by
  obtain ⟨a1, a2, a3, a4, a5, a6, a7, a8, a9, a10, a11, a12⟩ := hab
  obtain ⟨b1, b2, b3, b4, b5, b6, b7, b8, b9, b10, b11, b12⟩ := hbc
  exact ⟨a1.trans b1, a2.trans b2, a3.trans b3, a4.trans b4, a5.trans b5, a6.trans b6,
    a7.trans b7, a8.trans b8, a9.trans b9, a10.trans b10, a11.trans b11, a12.trans b12⟩

/-- What a match with an ethertype covers has that ethertype. -/
theorem Covers.ethType_eq {m k : OFPMatch} (h : m.Covers k) {t : ℕ} (ht : m.ethType = some t) :
    k.ethType = some t := by
  have hf : FieldCovers m.ethType k.ethType := h.2.2.2.1
  rw [ht] at hf
  exact fieldCovers_some.mp hf

/-- The transport destination port, for TCP (6) or UDP. -/
def dstPort (m : OFPMatch) (proto : ℕ) : Option ℕ := if proto = 6 then m.tcpDst else m.udpDst

/-- The transport source port, for TCP (6) or UDP. -/
def srcPort (m : OFPMatch) (proto : ℕ) : Option ℕ := if proto = 6 then m.tcpSrc else m.udpSrc

/-- What a match with a destination port covers goes to that port. -/
theorem Covers.dstPort_eq {m k : OFPMatch} (h : m.Covers k) {proto port : ℕ}
    (hm : m.dstPort proto = some port) : k.dstPort proto = some port := by
  unfold dstPort at hm ⊢
  by_cases hp : proto = 6
  · rw [if_pos hp] at hm ⊢
    have hf : FieldCovers m.tcpDst k.tcpDst := h.2.2.2.2.2.2.2.2.1
    rw [hm] at hf
    exact fieldCovers_some.mp hf
  · rw [if_neg hp] at hm ⊢
    have hf : FieldCovers m.udpDst k.udpDst := h.2.2.2.2.2.2.2.2.2.2.1
    rw [hm] at hf
    exact fieldCovers_some.mp hf

/-- What a match with a source port covers comes from that port. -/
theorem Covers.srcPort_eq {m k : OFPMatch} (h : m.Covers k) {proto port : ℕ}
    (hm : m.srcPort proto = some port) : k.srcPort proto = some port := by
  unfold srcPort at hm ⊢
  by_cases hp : proto = 6
  · rw [if_pos hp] at hm ⊢
    have hf : FieldCovers m.tcpSrc k.tcpSrc := h.2.2.2.2.2.2.2.1
    rw [hm] at hf
    exact fieldCovers_some.mp hf
  · rw [if_neg hp] at hm ⊢
    have hf : FieldCovers m.udpSrc k.udpSrc := h.2.2.2.2.2.2.2.2.2.1
    rw [hm] at hf
    exact fieldCovers_some.mp hf

/-- The empty match is the table-miss match: it covers everything. -/
@[simp] theorem covers_any (k : OFPMatch) : ({} : OFPMatch).Covers k := by
  simp [Covers]

end OFPMatch

/-! ## Messages and entries -/

/-- The output action, with the number of bytes to send to the controller. -/
structure OFPActionOutput where
  port : ℕ
  maxLen : ℕ := OFPCML_MAX
deriving DecidableEq

/-- An entry of the flow table: its apply-actions are the actions listed. -/
structure FlowEntry where
  priority : ℕ
  ofMatch : OFPMatch
  actions : List OFPActionOutput
  idleTimeout : ℕ := 0
  hardTimeout : ℕ := 0
deriving DecidableEq

/-- The ports an entry sends a frame out of: the controller is not one, nor is the port the frame
came in by. -/
def FlowEntry.outPorts (e : FlowEntry) (k : FlowKey) : List ℕ :=
  (e.actions.map OFPActionOutput.port).filter
    (fun p => p ≠ OFPP_CONTROLLER ∧ some p ≠ k.inPort)

/-- The flow-mod commands in use: add, and non-strict delete. -/
inductive OFPFC where
  | add
  | delete
deriving DecidableEq

/-- A flow modification; the defaults are those of the message constructor. -/
structure OFPFlowMod where
  command : OFPFC := .add
  priority : ℕ := OFP_DEFAULT_PRIORITY
  ofMatch : OFPMatch := {}
  actions : List OFPActionOutput := []
  idleTimeout : ℕ := 0
  hardTimeout : ℕ := 0
  bufferId : ℕ := OFP_NO_BUFFER
  outPort : ℕ := 0
  outGroup : ℕ := 0
deriving DecidableEq

/-- A frame sent out by the controller: the buffered one, or the bytes given. -/
structure OFPPacketOut where
  bufferId : ℕ
  inPort : ℕ
  actions : List OFPActionOutput
  data : Option (List UInt8)
deriving DecidableEq

/-- The messages a controller sends to a switch. -/
inductive OFPMsg where
  | flowMod (mod : OFPFlowMod)
  | packetOut (out : OFPPacketOut)
deriving DecidableEq

/-- The entry an add message installs. -/
def OFPFlowMod.entry (mod : OFPFlowMod) : FlowEntry where
  priority := mod.priority
  ofMatch := mod.ofMatch
  actions := mod.actions
  idleTimeout := mod.idleTimeout
  hardTimeout := mod.hardTimeout

/-- The message sends a frame out: a packet-out with an action, or an added entry that also
releases a buffered frame into the table. -/
def OFPMsg.Outputs : OFPMsg → Prop
  | .packetOut out => out.actions ≠ []
  | .flowMod mod => mod.command = .add ∧ mod.bufferId ≠ OFP_NO_BUFFER ∧ mod.actions ≠ []

instance (m : OFPMsg) : Decidable m.Outputs :=
  match m with
  | .packetOut _ => inferInstanceAs (Decidable (¬ _))
  | .flowMod _ => inferInstanceAs (Decidable (_ ∧ _))

/-- The ports a message sends the frame it is about out of. -/
def OFPMsg.framePorts : OFPMsg → List ℕ
  | .packetOut out => out.actions.map OFPActionOutput.port
  | .flowMod mod =>
    if mod.command = .add ∧ mod.bufferId ≠ OFP_NO_BUFFER then
      mod.actions.map OFPActionOutput.port
    else []

/-- The entry a message installs, if it is an add. -/
def OFPMsg.installs? : OFPMsg → Option FlowEntry
  | .flowMod mod => if mod.command = .add then some mod.entry else none
  | .packetOut _ => none

/-- The message neither overwrites nor deletes the entry, whatever table it is in. -/
def OFPMsg.Spares (m : OFPMsg) (e : FlowEntry) : Prop :=
  match m with
  | .packetOut _ => True
  | .flowMod mod =>
    match mod.command with
    | .add => e = mod.entry ∨ ¬ (e.priority = mod.entry.priority ∧ e.ofMatch = mod.entry.ofMatch)
    | .delete => ¬ mod.ofMatch.Covers e.ofMatch

/-- An entry that is installed spares the others of another priority or match. -/
theorem OFPMsg.spares_of_installs {m : OFPMsg} {e e' : FlowEntry} (he : m.installs? = some e')
    (h : e = e' ∨ ¬ (e.priority = e'.priority ∧ e.ofMatch = e'.ofMatch)) : m.Spares e := by
  cases m with
  | packetOut out => trivial
  | flowMod mod =>
      simp only [OFPMsg.installs?, Option.ite_none_right_eq_some, Option.some.injEq] at he
      obtain ⟨hc, rfl⟩ := he
      simp only [OFPMsg.Spares, hc]
      exact h

/-- One flow table. -/
abbrev FlowTable := List FlowEntry

namespace FlowTable

/-- Add an entry, replacing one with the same match and priority. -/
def add (t : FlowTable) (e : FlowEntry) : FlowTable :=
  t.filter (fun e' => ¬ (e'.priority = e.priority ∧ e'.ofMatch = e.ofMatch)) ++ [e]

/-- Non-strict delete: remove the entries at least as specific as the match that also pass the
output filters. No entry outputs to a group, so only `OFPG_ANY` selects any. -/
def delete (t : FlowTable) (m : OFPMatch) (outPort : ℕ) (outGroup : ℕ) : FlowTable :=
  t.filter fun e =>
    ¬ (m.Covers e.ofMatch ∧
      (outPort = OFPP_ANY ∨ outPort ∈ e.actions.map OFPActionOutput.port) ∧ outGroup = OFPG_ANY)

/-- The effect of one message on the table. -/
def apply (t : FlowTable) : OFPMsg → FlowTable
  | .flowMod mod =>
    match mod.command with
    | .add => t.add mod.entry
    | .delete => t.delete mod.ofMatch mod.outPort mod.outGroup
  | .packetOut _ => t

/-- The effect of messages applied in order. -/
def applyAll (t : FlowTable) (ms : List OFPMsg) : FlowTable := ms.foldl apply t

/-- An entry leaves the table by a timeout; an entry without timeouts stays. -/
def expire (t : FlowTable) (e : FlowEntry) : FlowTable :=
  if e.idleTimeout = 0 ∧ e.hardTimeout = 0 then t else t.filter (fun e' => e' ≠ e)

/-- A table after an addition: the new entry, and the old ones but for those it overwrites. -/
theorem mem_add {t : FlowTable} {e e' : FlowEntry} :
    e' ∈ t.add e ↔
      (e' ∈ t ∧ ¬ (e'.priority = e.priority ∧ e'.ofMatch = e.ofMatch)) ∨ e' = e := by
  simp only [add, List.mem_append, List.mem_filter, decide_eq_true_eq, List.mem_singleton]

/-- What is added is there. -/
theorem mem_add_self (t : FlowTable) (e : FlowEntry) : e ∈ t.add e :=
  mem_add.mpr (Or.inr rfl)

/-- A table after a deletion: the entries that the match or the ports do not select. -/
theorem mem_delete {t : FlowTable} {m : OFPMatch} {outPort : ℕ} {outGroup : ℕ}
    {e : FlowEntry} :
    e ∈ t.delete m outPort outGroup ↔
      e ∈ t ∧ ¬ (m.Covers e.ofMatch ∧
        (outPort = OFPP_ANY ∨ outPort ∈ e.actions.map OFPActionOutput.port) ∧
        outGroup = OFPG_ANY) := by
  simp only [delete, List.mem_filter, decide_eq_true_eq]

/-- An unfiltered delete removes exactly the entries its match covers. -/
theorem mem_delete_any {t : FlowTable} {m : OFPMatch} {e : FlowEntry} :
    e ∈ t.delete m OFPP_ANY OFPG_ANY ↔ e ∈ t ∧ ¬ m.Covers e.ofMatch := by
  simp [mem_delete]

/-- An expiry brings nothing in. -/
theorem mem_of_mem_expire {t : FlowTable} {e e' : FlowEntry} (h : e' ∈ t.expire e) : e' ∈ t := by
  unfold expire at h
  split at h
  · exact h
  · exact List.mem_of_mem_filter h

/-- An entry without timeouts survives every expiry. -/
theorem mem_expire_of_permanent {t : FlowTable} {e e' : FlowEntry} (h : e' ∈ t)
    (hidle : e'.idleTimeout = 0) (hhard : e'.hardTimeout = 0) : e' ∈ t.expire e := by
  unfold expire
  split
  · exact h
  · rename_i hne
    refine List.mem_filter.mpr ⟨h, ?_⟩
    have : e' ≠ e := fun he => hne (he ▸ ⟨hidle, hhard⟩)
    simpa using this

@[simp] theorem applyAll_nil (t : FlowTable) : t.applyAll [] = t := rfl

@[simp] theorem applyAll_cons (t : FlowTable) (m : OFPMsg) (ms : List OFPMsg) :
    t.applyAll (m :: ms) = (t.apply m).applyAll ms := rfl

/-- Messages in two parts are applied one part after the other. -/
theorem applyAll_append (t : FlowTable) (ms ms' : List OFPMsg) :
    t.applyAll (ms ++ ms') = (t.applyAll ms).applyAll ms' := List.foldl_append

@[simp] theorem apply_packetOut (t : FlowTable) (out : OFPPacketOut) :
    t.apply (.packetOut out) = t := rfl

/-- A flow mod that adds applies as an addition. -/
theorem apply_add (t : FlowTable) {mod : OFPFlowMod} (h : mod.command = .add) :
    t.apply (.flowMod mod) = t.add mod.entry := by
  simp only [apply, h]

/-- A flow mod that deletes applies as a deletion. -/
theorem apply_delete (t : FlowTable) {mod : OFPFlowMod} (h : mod.command = .delete) :
    t.apply (.flowMod mod) = t.delete mod.ofMatch mod.outPort mod.outGroup := by
  simp only [apply, h]

/-- An entry found after a message was there before or is the one the message installs. -/
theorem mem_apply {t : FlowTable} {m : OFPMsg} {e : FlowEntry} (h : e ∈ t.apply m) :
    e ∈ t ∨ m.installs? = some e := by
  cases m with
  | packetOut out => exact Or.inl h
  | flowMod mod =>
      cases hc : mod.command with
      | add =>
          rw [apply_add t hc, mem_add] at h
          rcases h with h | rfl
          · exact Or.inl h.1
          · exact Or.inr (by simp [OFPMsg.installs?, hc])
      | delete =>
          rw [apply_delete t hc, mem_delete] at h
          exact Or.inl h.1

/-- The entry a message installs is in the table afterwards. -/
theorem mem_apply_of_installs (t : FlowTable) {m : OFPMsg} {e : FlowEntry}
    (h : m.installs? = some e) : e ∈ t.apply m := by
  cases m with
  | packetOut out => exact absurd h (by simp [OFPMsg.installs?])
  | flowMod mod =>
      simp only [OFPMsg.installs?, Option.ite_none_right_eq_some, Option.some.injEq] at h
      obtain ⟨hc, rfl⟩ := h
      rw [apply_add t hc]
      exact mem_add_self t mod.entry

/-- An entry found after a list of messages was there before or one of them installed it. -/
theorem mem_applyAll {t : FlowTable} {ms : List OFPMsg} {e : FlowEntry}
    (h : e ∈ t.applyAll ms) : e ∈ t ∨ ∃ m ∈ ms, m.installs? = some e := by
  induction ms generalizing t with
  | nil => exact Or.inl h
  | cons m ms ih =>
      rcases ih h with h | ⟨m', hm', he⟩
      · rcases mem_apply h with h | h
        · exact Or.inl h
        · exact Or.inr ⟨m, List.mem_cons_self, h⟩
      · exact Or.inr ⟨m', List.mem_cons_of_mem _ hm', he⟩

/-- An entry survives a message that neither overwrites nor deletes it. -/
theorem mem_apply_of_spares {t : FlowTable} {m : OFPMsg} {e : FlowEntry} (h : e ∈ t)
    (hm : m.Spares e) : e ∈ t.apply m := by
  cases m with
  | packetOut out => exact h
  | flowMod mod =>
      simp only [OFPMsg.Spares] at hm
      cases hc : mod.command with
      | add =>
          rw [hc] at hm
          rw [apply_add t hc, mem_add]
          rcases hm with rfl | hne
          · exact Or.inr rfl
          · exact Or.inl ⟨h, hne⟩
      | delete =>
          rw [hc] at hm
          rw [apply_delete t hc, mem_delete]
          exact ⟨h, fun hcov => hm hcov.1⟩

/-- An entry survives messages none of which overwrites or deletes it. -/
theorem mem_applyAll_of_spares {t : FlowTable} {ms : List OFPMsg} {e : FlowEntry} (h : e ∈ t)
    (hms : ∀ m ∈ ms, m.Spares e) : e ∈ t.applyAll ms := by
  induction ms generalizing t with
  | nil => exact h
  | cons m ms ih =>
      exact ih (mem_apply_of_spares h (hms m List.mem_cons_self))
        fun m' hm' => hms m' (List.mem_cons_of_mem _ hm')

/-- A message that installs an entry overwrites it: it makes no difference whether it was there. -/
theorem apply_filter_of_installs {t : FlowTable} {m : OFPMsg} {e : FlowEntry}
    (h : m.installs? = some e) : apply (t.filter fun e' => e' ≠ e) m = t.apply m := by
  cases m with
  | packetOut out => exact absurd h (by simp [OFPMsg.installs?])
  | flowMod mod =>
      simp only [OFPMsg.installs?, Option.ite_none_right_eq_some, Option.some.injEq] at h
      obtain ⟨hc, rfl⟩ := h
      rw [apply_add _ hc, apply_add _ hc, add, add, List.filter_filter]
      refine congrArg (· ++ _) (List.filter_congr fun e' _ => ?_)
      by_cases he : e' = mod.entry <;> simp [he]

/-- The removal of an entry commutes with a message that does not install it. -/
theorem apply_filter_of_not_installs {t : FlowTable} {m : OFPMsg} {e : FlowEntry}
    (h : m.installs? ≠ some e) :
    apply (t.filter fun e' => e' ≠ e) m = (t.apply m).filter fun e' => e' ≠ e := by
  cases m with
  | packetOut out => rfl
  | flowMod mod =>
      cases hc : mod.command with
      | add =>
          have hne : mod.entry ≠ e := fun he => h (by simp [OFPMsg.installs?, hc, he])
          rw [apply_add _ hc, apply_add _ hc, add, add, List.filter_append, List.filter_comm]
          simp [hne]
      | delete =>
          rw [apply_delete _ hc, apply_delete _ hc, delete, delete, List.filter_comm]

/-- An entry that leaves before pending messages are applied leaves after them, unless one of them
installs it again. -/
theorem applyAll_expire (t : FlowTable) (e : FlowEntry) (ms : List OFPMsg) :
    (t.expire e).applyAll ms =
      if ∃ m ∈ ms, m.installs? = some e then t.applyAll ms else (t.applyAll ms).expire e := by
  unfold expire
  by_cases hpermanent : e.idleTimeout = 0 ∧ e.hardTimeout = 0
  · simp only [if_pos hpermanent, ite_self]
  simp only [if_neg hpermanent]
  induction ms generalizing t with
  | nil => simp
  | cons m ms ih =>
      by_cases hm : m.installs? = some e
      · rw [if_pos ⟨m, List.mem_cons_self, hm⟩, applyAll_cons, applyAll_cons,
          apply_filter_of_installs hm]
      · simp only [applyAll_cons, apply_filter_of_not_installs hm, ih, List.mem_cons,
          exists_eq_or_imp, hm, false_or]

/-! ## Deciding a frame -/

/-- `e` decides frames with header fields `k`: it matches, and nothing that matches has a higher
priority. Between entries of equal priority the choice is left open. -/
def Decides (t : FlowTable) (k : FlowKey) (e : FlowEntry) : Prop :=
  e ∈ t ∧ e.ofMatch.Covers k ∧ ∀ e' ∈ t, e'.ofMatch.Covers k → e'.priority ≤ e.priority

instance (t : FlowTable) (k : FlowKey) (e : FlowEntry) : Decidable (t.Decides k e) :=
  inferInstanceAs (Decidable (_ ∧ _ ∧ ∀ e' ∈ t, _))

/-- The entry that decides is in the table. -/
theorem Decides.mem {t : FlowTable} {k : FlowKey} {e : FlowEntry} (h : t.Decides k e) : e ∈ t :=
  h.1

/-- It matches the frame. -/
theorem Decides.covers {t : FlowTable} {k : FlowKey} {e : FlowEntry} (h : t.Decides k e) :
    e.ofMatch.Covers k :=
  h.2.1

/-- A matching entry bounds the priority of the deciding one from below. -/
theorem Decides.le {t : FlowTable} {k : FlowKey} {e e' : FlowEntry} (h : t.Decides k e)
    (he' : e' ∈ t) (hk : e'.ofMatch.Covers k) : e'.priority ≤ e.priority :=
  h.2.2 e' he' hk

/-- A frame that some entry matches is decided by some entry. -/
theorem exists_decides {t : FlowTable} {k : FlowKey} {e : FlowEntry} (he : e ∈ t)
    (hk : e.ofMatch.Covers k) : ∃ e', t.Decides k e' := by
  induction t generalizing e with
  | nil => simp at he
  | cons a t ih =>
      by_cases hex : ∃ b ∈ t, b.ofMatch.Covers k
      · obtain ⟨b, hb, hbk⟩ := hex
        obtain ⟨d, hd, hdk, hmax⟩ := ih hb hbk
        by_cases ha : a.ofMatch.Covers k ∧ d.priority < a.priority
        -- the first entry decides only if it outranks the one that decides among the rest
        · refine ⟨a, List.mem_cons_self, ha.1, ?_⟩
          intro c hc hck
          rcases List.mem_cons.mp hc with rfl | hc
          · exact le_rfl
          · exact le_trans (hmax c hc hck) (Nat.le_of_lt ha.2)
        · refine ⟨d, List.mem_cons_of_mem _ hd, hdk, ?_⟩
          intro c hc hck
          rcases List.mem_cons.mp hc with rfl | hc
          · exact not_lt.mp fun hlt => ha ⟨hck, hlt⟩
          · exact hmax c hc hck
      · rcases List.mem_cons.mp he with rfl | he
        · refine ⟨e, List.mem_cons_self, hk, ?_⟩
          intro c hc hck
          rcases List.mem_cons.mp hc with rfl | hc
          · exact le_rfl
          · exact absurd ⟨c, hc, hck⟩ hex
        · exact absurd ⟨e, he, hk⟩ hex

/-- Some entry that may decide the frame sends it out of a port. -/
def Forwards (t : FlowTable) (k : FlowKey) : Prop :=
  ∃ e ∈ t, t.Decides k e ∧ e.outPorts k ≠ []

instance (t : FlowTable) (k : FlowKey) : Decidable (t.Forwards k) :=
  inferInstanceAs (Decidable (∃ e ∈ t, _))

/-- Some entry that may decide the frame sends it to the controller. -/
def SendsToController (t : FlowTable) (k : FlowKey) : Prop :=
  ∃ e ∈ t, t.Decides k e ∧ OFPP_CONTROLLER ∈ e.actions.map OFPActionOutput.port

instance (t : FlowTable) (k : FlowKey) : Decidable (t.SendsToController k) :=
  inferInstanceAs (Decidable (∃ e ∈ t, _))

/-- Whatever decides the frame, it is neither forwarded nor sent to the controller. -/
def Drops (t : FlowTable) (k : FlowKey) : Prop := ¬ t.Forwards k ∧ ¬ t.SendsToController k

/-- An entry decides no frame that a higher one matches. -/
theorem not_decides_of_lt {t : FlowTable} {k : FlowKey} {e e' : FlowEntry} (he' : e' ∈ t)
    (hk : e'.ofMatch.Covers k) (hlt : e.priority < e'.priority) : ¬ t.Decides k e :=
  fun h => absurd (h.le he' hk) (not_le.mpr hlt)

end FlowTable

end OpenFlow
