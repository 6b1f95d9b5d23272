import SdnFirewall.Controller.Connection
import SdnFirewall.Controller.Oxm
import SdnFirewall.Controller.RecvLoop

/-!
# Messages on the wire

What is sent to a switch is a header, which tells the type and the length of the message, and a body
of fixed fields followed by parts of varying length. The reader goes by these lengths.
-/

namespace OpenFlow

open SdnFirewall Struct

def OFPT_PACKET_OUT : ℕ := 13
def OFPT_FLOW_MOD : ℕ := 14
def OFPAT_OUTPUT : ℕ := 0
def OFPIT_WRITE_ACTIONS : ℕ := 3
def OFPIT_APPLY_ACTIONS : ℕ := 4
def OFPIT_CLEAR_ACTIONS : ℕ := 5
def OFP_ACTION_OUTPUT_SIZE : ℕ := 16
def OFP_INSTRUCTION_ACTIONS_SIZE : ℕ := 8
def OFP_FLOW_MOD_SIZE : ℕ := 56
def OFP_PACKET_OUT_SIZE : ℕ := 24

def OFP_HEADER_PACK_STR : Format := [.uint 1, .uint 1, .uint 2, .uint 4]
def OFP_ACTION_OUTPUT_PACK_STR : Format := [.uint 2, .uint 2, .uint 4, .uint 2, .pad 6]
def OFP_INSTRUCTION_ACTIONS_PACK_STR : Format := [.uint 2, .uint 2, .pad 4]
def OFP_FLOW_MOD_PACK_STR0 : Format :=
  [.uint 8, .uint 8, .uint 1, .uint 1, .uint 2, .uint 2, .uint 2, .uint 4, .uint 4, .uint 4,
    .uint 2, .pad 2]
def OFP_PACKET_OUT_PACK_STR : Format := [.uint 4, .uint 4, .uint 2, .pad 6]

/-! ## Actions and instructions -/

namespace OFPActionOutput

/-- `OFPActionOutput.serialize`. -/
def serialize (a : OFPActionOutput) : Option Bytes :=
  pack OFP_ACTION_OUTPUT_PACK_STR [OFPAT_OUTPUT, OFP_ACTION_OUTPUT_SIZE, a.port, a.maxLen]

/-- `OFPAction.parser`; other actions are not read. -/
def parse (bs : Bytes) : Option (OFPActionOutput × ℕ) :=
  match unpackFrom OFP_ACTION_OUTPUT_PACK_STR bs with
  | some [type, _, port, maxLen] =>
    if type = OFPAT_OUTPUT then some ({ port, maxLen }, OFP_ACTION_OUTPUT_SIZE) else none
  | _ => none

/-- An output action always has the same size. -/
theorem length_of_serialize {a : OFPActionOutput} {bs : Bytes} (h : a.serialize = some bs) :
    bs.length = OFP_ACTION_OUTPUT_SIZE := length_of_pack h

/-- It is read back as it is. -/
theorem readsBack (a : OFPActionOutput) : ReadsBack serialize parse a := by
  intro bs hbs
  have hlen := length_of_serialize hbs
  refine ⟨List.ne_nil_of_length_pos (hlen ▸ by decide), fun rest => ?_⟩
  rw [parse, unpackFrom_of_pack hbs, hlen]
  exact if_pos rfl

/-- The values of an action fit into their fields. -/
def InRange (a : OFPActionOutput) : Prop := a.port < 2 ^ 32 ∧ a.maxLen < 2 ^ 16

/-- Actions with numbers in range are written. -/
theorem exists_packAll {actions : List OFPActionOutput} (h : ∀ a ∈ actions, a.InRange) :
    ∃ bs, packAll serialize actions = some bs ∧
      bs.length = actions.length * OFP_ACTION_OUTPUT_SIZE := by
  obtain ⟨bs, hbs⟩ : ∃ bs, packAll serialize actions = some bs :=
    Struct.exists_packAll fun a ha => exists_pack (show Fits OFP_ACTION_OUTPUT_PACK_STR _ from
      ⟨by decide, by decide, (h a ha).1, (h a ha).2, rfl⟩)
  exact ⟨bs, hbs, length_packAll hbs fun _ _ _ => length_of_serialize⟩

end OFPActionOutput

/-- An instruction with a list of actions. -/
structure OFPInstructionActions where
  type : ℕ
  actions : List OFPActionOutput
deriving DecidableEq

namespace OFPInstructionActions

/-- `OFPInstructionActions.serialize`. -/
def serialize (i : OFPInstructionActions) : Option Bytes :=
  (packAll OFPActionOutput.serialize i.actions).bind fun actions =>
    let len := OFP_INSTRUCTION_ACTIONS_SIZE + actions.length
    let padLen := roundUp len 8 - len
    (pack OFP_INSTRUCTION_ACTIONS_PACK_STR [i.type, len + padLen]).map fun hdr =>
      hdr ++ (actions ++ List.replicate padLen 0)

/-- `OFPInstruction.parser`, for the instructions with actions; others are not read. -/
def parse (bs : Bytes) : Option (OFPInstructionActions × ℕ) :=
  match unpackFrom OFP_INSTRUCTION_ACTIONS_PACK_STR bs with
  | some [type, len] =>
    if type ∈ [OFPIT_WRITE_ACTIONS, OFPIT_APPLY_ACTIONS, OFPIT_CLEAR_ACTIONS] then
      (unpackAll OFPActionOutput.parse len (len - OFP_INSTRUCTION_ACTIONS_SIZE)
        (bs.drop OFP_INSTRUCTION_ACTIONS_SIZE)).map fun actions => ({ type, actions }, len)
    else none
  | _ => none

/-- Output actions need no padding. -/
theorem padding_eq_zero {actions : Bytes} {n : ℕ}
    (h : actions.length = n * OFP_ACTION_OUTPUT_SIZE) :
    roundUp (OFP_INSTRUCTION_ACTIONS_SIZE + actions.length) 8 -
      (OFP_INSTRUCTION_ACTIONS_SIZE + actions.length) = 0 := by
  simp only [roundUp, OFP_INSTRUCTION_ACTIONS_SIZE, h, OFP_ACTION_OUTPUT_SIZE]
  omega

/-- An instruction is its header, with the length of its actions in it, and the actions. -/
theorem serialize_eq_some {i : OFPInstructionActions} {bs : Bytes} (h : i.serialize = some bs) :
    ∃ actions hdr, packAll OFPActionOutput.serialize i.actions = some actions ∧
      pack OFP_INSTRUCTION_ACTIONS_PACK_STR
        [i.type, OFP_INSTRUCTION_ACTIONS_SIZE + actions.length] = some hdr ∧
      bs = hdr ++ actions := by
  obtain ⟨actions, hactions, hmap⟩ := Option.bind_eq_some_iff.mp h
  have hpad := padding_eq_zero
    (length_packAll hactions fun _ _ _ => OFPActionOutput.length_of_serialize)
  simp only [hpad, Nat.add_zero, List.replicate_zero, List.append_nil] at hmap
  obtain ⟨hdr, hhdr, rfl⟩ := Option.map_eq_some_iff.mp hmap
  exact ⟨actions, hdr, hactions, hhdr, rfl⟩

/-- An instruction about actions is read back. -/
theorem readsBack {i : OFPInstructionActions}
    (h : i.type ∈ [OFPIT_WRITE_ACTIONS, OFPIT_APPLY_ACTIONS, OFPIT_CLEAR_ACTIONS]) :
    ReadsBack serialize parse i := by
  intro bs hbs
  obtain ⟨actions, hdr, hactions, hhdr, rfl⟩ := serialize_eq_some hbs
  have hlen : hdr.length = OFP_INSTRUCTION_ACTIONS_SIZE := length_of_pack hhdr
  refine ⟨List.ne_nil_of_length_pos ?_, fun rest => ?_⟩
  · rw [List.length_append, hlen, OFP_INSTRUCTION_ACTIONS_SIZE]
    omega
  · rw [parse, List.append_assoc, unpackFrom_of_pack hhdr]
    simp only
    rw [if_pos h, ← hlen, List.drop_left, Nat.add_sub_cancel_left,
      unpackAll_of_packAll (fun a _ => OFPActionOutput.readsBack a) hactions (Nat.le_add_left _ _),
      Option.map_some, List.length_append]

/-- An instruction is written if its actions are in range and not too many. -/
theorem exists_serialize {i : OFPInstructionActions} (htype : i.type < 2 ^ 16)
    (h : ∀ a ∈ i.actions, a.InRange)
    (hlen : OFP_INSTRUCTION_ACTIONS_SIZE + i.actions.length * OFP_ACTION_OUTPUT_SIZE < 2 ^ 16) :
    ∃ bs, i.serialize = some bs ∧
      bs.length = OFP_INSTRUCTION_ACTIONS_SIZE + i.actions.length * OFP_ACTION_OUTPUT_SIZE := by
  obtain ⟨actions, hactions, hactionsLen⟩ := OFPActionOutput.exists_packAll h
  obtain ⟨hdr, hhdr⟩ := exists_pack (show Fits OFP_INSTRUCTION_ACTIONS_PACK_STR
    [i.type, OFP_INSTRUCTION_ACTIONS_SIZE + i.actions.length * OFP_ACTION_OUTPUT_SIZE] from
      ⟨htype, hlen, rfl⟩)
  have hhdrLen : hdr.length = OFP_INSTRUCTION_ACTIONS_SIZE := length_of_pack hhdr
  refine ⟨hdr ++ actions, ?_, by rw [List.length_append, hhdrLen, hactionsLen]⟩
  have hpad := padding_eq_zero hactionsLen
  rw [← hactionsLen] at hhdr
  simp only [serialize, hactions, Option.bind_some, hpad, Nat.add_zero, List.replicate_zero,
    List.append_nil, hhdr, Option.map_some]

end OFPInstructionActions

/-! ## Flow modifications -/

/-- `OFPFlowMod` with all its attributes. -/
structure FlowModMsg where
  cookie : ℕ := 0
  cookieMask : ℕ := 0
  tableId : ℕ := 0
  command : ℕ
  idleTimeout : ℕ
  hardTimeout : ℕ
  priority : ℕ
  bufferId : ℕ
  outPort : ℕ
  outGroup : ℕ
  flags : ℕ := 0
  ofMatch : OFPMatch
  instructions : List OFPInstructionActions

namespace FlowModMsg

/-- The attributes at fixed places. -/
def values (m : FlowModMsg) : List ℕ :=
  [m.cookie, m.cookieMask, m.tableId, m.command, m.idleTimeout, m.hardTimeout, m.priority,
    m.bufferId, m.outPort, m.outGroup, m.flags]

/-- The body that `OFPFlowMod._serialize_body` writes. -/
def serializeBody (m : FlowModMsg) : Option Bytes :=
  (pack OFP_FLOW_MOD_PACK_STR0 m.values).bind fun fixed =>
    m.ofMatch.serialize.bind fun ofMatch =>
      (packAll OFPInstructionActions.serialize m.instructions).map fun instructions =>
        fixed ++ (ofMatch ++ instructions)

/-- `OFPFlowMod.parser`. -/
def parser (msgLen : ℕ) (buf : Bytes) : Option FlowModMsg :=
  match unpackFrom OFP_FLOW_MOD_PACK_STR0 (buf.drop OFP_HEADER_SIZE) with
  | some [cookie, cookieMask, tableId, command, idleTimeout, hardTimeout, priority, bufferId,
      outPort, outGroup, flags] =>
    (OFPMatch.parser (buf.drop (OFP_FLOW_MOD_SIZE - OFP_HEADER_SIZE))).bind fun r =>
      let offset := OFP_FLOW_MOD_SIZE - OFP_HEADER_SIZE + roundUp r.2 8
      (unpackAll OFPInstructionActions.parse msgLen (msgLen - offset) (buf.drop offset)).map
        fun instructions =>
          { cookie, cookieMask, tableId, command, idleTimeout, hardTimeout, priority, bufferId,
            outPort, outGroup, flags, ofMatch := r.1, instructions }
  | _ => none

/-- The match and the instructions can be read back. -/
structure WellFormed (m : FlowModMsg) : Prop where
  ofMatch : m.ofMatch.WellFormed
  instructions : ∀ i ∈ m.instructions,
    i.type ∈ [OFPIT_WRITE_ACTIONS, OFPIT_APPLY_ACTIONS, OFPIT_CLEAR_ACTIONS]

/-- A flow mod is parsed from the body it was written to, behind any header. -/
theorem parser_of_serializeBody {m : FlowModMsg} (h : m.WellFormed) {hdr body : Bytes}
    (hhdr : hdr.length = OFP_HEADER_SIZE) (hbody : m.serializeBody = some body) :
    parser (hdr ++ body).length (hdr ++ body) = some m := by
  obtain ⟨fixed, hfixed, hbind⟩ := Option.bind_eq_some_iff.mp hbody
  obtain ⟨ofMatch, hmatch, hmap⟩ := Option.bind_eq_some_iff.mp hbind
  obtain ⟨instructions, hinst, rfl⟩ := Option.map_eq_some_iff.mp hmap
  obtain ⟨length, hparse, hround⟩ := OFPMatch.parser_of_serialize h.ofMatch hmatch instructions
  have hfixedLen : fixed.length = 40 := length_of_pack hfixed
  rw [OFP_HEADER_SIZE] at hhdr
  -- header and fixed fields take 48 bytes; the reader counts from the start of the message
  have hdrop (n : ℕ) : (hdr ++ (fixed ++ (ofMatch ++ instructions))).drop (48 + n) =
      (ofMatch ++ instructions).drop n := by
    rw [show 48 + n = hdr.length + (fixed.length + n) by omega, ← List.drop_drop, List.drop_left,
      ← List.drop_drop, List.drop_left]
  have hstart := hdrop 0
  rw [Nat.add_zero, List.drop_zero] at hstart
  have hleft : (hdr ++ (fixed ++ (ofMatch ++ instructions))).length - (48 + ofMatch.length) =
      instructions.length := by
    simp only [List.length_append]
    omega
  have hbehind : (hdr ++ (fixed ++ (ofMatch ++ instructions))).drop (48 + ofMatch.length) =
      instructions := by
    rw [hdrop, List.drop_left]
  have hfuel : instructions.length ≤ (hdr ++ (fixed ++ (ofMatch ++ instructions))).length := by
    simp only [List.length_append]
    omega
  have hunpack : unpackAll OFPInstructionActions.parse
      (hdr ++ (fixed ++ (ofMatch ++ instructions))).length instructions.length instructions =
        some m.instructions := by
    have h := unpackAll_of_packAll
      (fun i hi => OFPInstructionActions.readsBack (h.instructions i hi)) hinst hfuel []
    rwa [List.append_nil] at h
  have hvalues : unpackFrom OFP_FLOW_MOD_PACK_STR0
      ((hdr ++ (fixed ++ (ofMatch ++ instructions))).drop 8) = some m.values := by
    rw [← hhdr, List.drop_left, unpackFrom_of_pack hfixed]
  rw [parser, OFP_HEADER_SIZE, OFP_FLOW_MOD_SIZE, hvalues, values]
  simp only [show 56 - 8 = 48 from rfl, hstart, hparse, Option.bind_some, hround, hleft, hbehind,
    hunpack, Option.map_some]

end FlowModMsg

/-- The number of a command. -/
def OFPFC.code : OFPFC → ℕ
  | .add => 0
  | .delete => 3

/-- The message as it is constructed: an entry is added with its actions to apply, and a delete has
no instructions. -/
def OFPFlowMod.msg (mod : OFPFlowMod) : FlowModMsg where
  command := mod.command.code
  idleTimeout := mod.idleTimeout
  hardTimeout := mod.hardTimeout
  priority := mod.priority
  bufferId := mod.bufferId
  outPort := mod.outPort
  outGroup := mod.outGroup
  ofMatch := mod.ofMatch
  instructions :=
    match mod.command with
    | .add => [{ type := OFPIT_APPLY_ACTIONS, actions := mod.actions }]
    | .delete => []

/-- The command and the actions of a message that is constructed like this. -/
def FlowModMsg.parts? (m : FlowModMsg) : Option (OFPFC × List OFPActionOutput) :=
  match m.instructions with
  | [] => if m.command = OFPFC.delete.code then some (.delete, []) else none
  | [i] =>
    if m.command = OFPFC.add.code ∧ i.type = OFPIT_APPLY_ACTIONS then some (.add, i.actions)
    else none
  | _ => none

/-- What a message says that is constructed like this. -/
def FlowModMsg.mod? (m : FlowModMsg) : Option OFPFlowMod :=
  if m.cookie = 0 ∧ m.cookieMask = 0 ∧ m.tableId = 0 ∧ m.flags = 0 then
    m.parts?.map fun r =>
      { command := r.1
        priority := m.priority
        ofMatch := m.ofMatch
        actions := r.2
        idleTimeout := m.idleTimeout
        hardTimeout := m.hardTimeout
        bufferId := m.bufferId
        outPort := m.outPort
        outGroup := m.outGroup }
  else none

/-- A flow mod of the controller is recovered from its message, if a delete names no actions. -/
theorem OFPFlowMod.mod?_msg {mod : OFPFlowMod} (h : mod.command = .delete → mod.actions = []) :
    mod.msg.mod? = some mod := by
  obtain ⟨command, priority, ofMatch, actions, idleTimeout, hardTimeout, bufferId, outPort,
    outGroup⟩ := mod
  cases command with
  | add => rfl
  | delete =>
      obtain rfl : actions = [] := h rfl
      rfl

/-- What is recovered has the match of the message, and a delete has no actions. -/
theorem FlowModMsg.actions_of_mod? {m : FlowModMsg} {mod : OFPFlowMod} (h : m.mod? = some mod) :
    mod.ofMatch = m.ofMatch ∧ (mod.command = .delete → mod.actions = []) := by
  unfold mod? at h
  split at h
  swap
  · cases h
  obtain ⟨r, hr, rfl⟩ := Option.map_eq_some_iff.mp h
  refine ⟨rfl, fun hdelete => ?_⟩
  simp only at hdelete ⊢
  unfold parts? at hr
  split at hr
  · split at hr
    swap
    · cases hr
    obtain rfl := Option.some.inj hr
    rfl
  · split at hr
    swap
    · cases hr
    obtain rfl := Option.some.inj hr
    cases hdelete
  · cases hr

/-- Whatever is read has a match whose values its fields can carry. -/
theorem FlowModMsg.wellFormed_parser_match {msgLen : ℕ} {buf : Bytes} {m : FlowModMsg}
    (h : parser msgLen buf = some m) : m.ofMatch.WellFormed := by
  unfold parser at h
  split at h
  swap
  · cases h
  obtain ⟨r, hr, hmap⟩ := Option.bind_eq_some_iff.mp h
  obtain ⟨instructions, -, rfl⟩ := Option.map_eq_some_iff.mp hmap
  exact OFPMatch.wellFormed_parser_match hr

/-- The message is well formed when the match is. -/
theorem OFPFlowMod.wellFormed_msg {mod : OFPFlowMod} (h : mod.ofMatch.WellFormed) :
    mod.msg.WellFormed := by
  refine ⟨h, fun i hi => ?_⟩
  obtain ⟨command, priority, ofMatch, actions, idleTimeout, hardTimeout, bufferId, outPort,
    outGroup⟩ := mod
  cases command with
  | add =>
      obtain rfl := List.mem_singleton.mp hi
      exact List.mem_cons_of_mem _ List.mem_cons_self
  | delete => cases hi

/-- The values of a message fit into their fields, and the message into its length. -/
structure OFPFlowMod.InRange (mod : OFPFlowMod) : Prop where
  idleTimeout : mod.idleTimeout < 2 ^ 16
  hardTimeout : mod.hardTimeout < 2 ^ 16
  priority : mod.priority < 2 ^ 16
  bufferId : mod.bufferId < 2 ^ 32
  outPort : mod.outPort < 2 ^ 32
  outGroup : mod.outGroup < 2 ^ 32
  actions : ∀ a ∈ mod.actions, a.InRange
  length : 192 + mod.actions.length * OFP_ACTION_OUTPUT_SIZE < 2 ^ 16

/-- The instructions of a flow mod with numbers in range are written. -/
theorem OFPFlowMod.exists_packAll {mod : OFPFlowMod} (h : mod.InRange) :
    ∃ bs, packAll OFPInstructionActions.serialize mod.msg.instructions = some bs ∧
      bs.length ≤ OFP_INSTRUCTION_ACTIONS_SIZE + mod.actions.length * OFP_ACTION_OUTPUT_SIZE := by
  have hlen := h.length
  have hactions := h.actions
  unfold msg
  cases mod.command with
  | add =>
      obtain ⟨bs, hbs, hbsLen⟩ := OFPInstructionActions.exists_serialize
        (i := { type := OFPIT_APPLY_ACTIONS, actions := mod.actions })
        (by simp only [OFPIT_APPLY_ACTIONS]; omega) hactions
        (by simp only [OFP_INSTRUCTION_ACTIONS_SIZE]; omega)
      exact ⟨bs, by simp [packAll, hbs], hbsLen.le⟩
  | delete => exact ⟨[], rfl, Nat.zero_le _⟩

/-- So is its body, which fits into one message. -/
theorem OFPFlowMod.exists_serializeBody {mod : OFPFlowMod} (hmatch : mod.ofMatch.WellFormed)
    (h : mod.InRange) :
    ∃ bs, mod.msg.serializeBody = some bs ∧ OFP_HEADER_SIZE + bs.length < 2 ^ 16 := by
  have hcode : mod.command.code < 256 ^ 1 := by cases mod.command <;> decide
  obtain ⟨fixed, hfixed⟩ : ∃ fixed, pack OFP_FLOW_MOD_PACK_STR0 mod.msg.values = some fixed :=
    exists_pack (show Fits OFP_FLOW_MOD_PACK_STR0 [0, 0, 0, mod.command.code, mod.idleTimeout,
      mod.hardTimeout, mod.priority, mod.bufferId, mod.outPort, mod.outGroup, 0] from
        ⟨by decide, by decide, by decide, hcode, h.idleTimeout, h.hardTimeout, h.priority,
          h.bufferId, h.outPort, h.outGroup, by decide, rfl⟩)
  obtain ⟨ofMatch, hofMatch, hmatchLen⟩ := OFPMatch.exists_serialize hmatch
  obtain ⟨instructions, hinst, hinstLen⟩ := exists_packAll h
  have hfixedLen : fixed.length = 40 := length_of_pack hfixed
  have hlen := h.length
  refine ⟨fixed ++ (ofMatch ++ instructions), ?_, ?_⟩
  · have hofMatch' : mod.msg.ofMatch.serialize = some ofMatch := hofMatch
    rw [FlowModMsg.serializeBody, hfixed, Option.bind_some, hofMatch', Option.bind_some, hinst,
      Option.map_some]
  · simp only [List.length_append, OFP_HEADER_SIZE, OFP_INSTRUCTION_ACTIONS_SIZE] at hinstLen ⊢
    omega

/-! ## Frames that are sent out -/

namespace OFPPacketOut

/-- The body that `OFPPacketOut._serialize_body` writes. The fixed fields are written last: where
no action has made room for them, they are written over the beginning of the data. -/
def serializeBody (out : OFPPacketOut) : Option Bytes :=
  if out.data ≠ none ∧ out.bufferId ≠ OFP_NO_BUFFER then none
  else
    (packAll OFPActionOutput.serialize out.actions).bind fun actions =>
      let data := out.data.getD []
      let behind := if out.actions = [] then data.drop (OFP_PACKET_OUT_SIZE - OFP_HEADER_SIZE)
        else actions ++ data
      (pack OFP_PACKET_OUT_PACK_STR [out.bufferId, out.inPort, actions.length]).map fun fixed =>
        fixed ++ behind

/-- What the message says: the parts stand where the fixed fields tell, and the frame is the one
that is buffered or the rest of the message. -/
def read? (buf : Bytes) : Option OFPPacketOut :=
  match unpackFrom OFP_PACKET_OUT_PACK_STR (buf.drop OFP_HEADER_SIZE) with
  | some [bufferId, inPort, actionsLen] =>
    (unpackAll OFPActionOutput.parse actionsLen actionsLen (buf.drop OFP_PACKET_OUT_SIZE)).map
      fun actions =>
        { bufferId, inPort, actions
          data := if bufferId = OFP_NO_BUFFER then
              some (buf.drop (OFP_PACKET_OUT_SIZE + actionsLen)) else none }
  | _ => none

/-- What is written is read as the frame that is sent, but for a part of it that is lost when no
action is given. -/
theorem read?_of_serializeBody {out : OFPPacketOut} {hdr body : Bytes}
    (hhdr : hdr.length = OFP_HEADER_SIZE) (hbody : out.serializeBody = some body) :
    read? (hdr ++ body) = some
      { out with
        data := if out.bufferId = OFP_NO_BUFFER then
            some (if out.actions = [] then (out.data.getD []).drop 16 else out.data.getD [])
          else none } := by
  unfold serializeBody at hbody
  split at hbody
  · cases hbody
  obtain ⟨actions, hactions, hmap⟩ := Option.bind_eq_some_iff.mp hbody
  obtain ⟨fixed, hfixed, rfl⟩ := Option.map_eq_some_iff.mp hmap
  have hfixedLen : fixed.length = 16 := length_of_pack hfixed
  rw [OFP_HEADER_SIZE] at hhdr
  generalize hdata : (if out.actions = [] then (out.data.getD []).drop 16 else out.data.getD []) =
    data
  have hbehind : (if out.actions = [] then
      (out.data.getD []).drop (OFP_PACKET_OUT_SIZE - OFP_HEADER_SIZE)
      else actions ++ out.data.getD []) = actions ++ data := by
    rw [← hdata]
    -- without actions the fixed fields are written over the first 16 bytes of the data
    by_cases hnil : out.actions = []
    · rw [hnil] at hactions
      obtain rfl := Option.some.inj hactions
      rw [if_pos hnil, if_pos hnil]
      rfl
    · rw [if_neg hnil, if_neg hnil]
  rw [hbehind]
  have hdrop (n : ℕ) : (hdr ++ (fixed ++ (actions ++ data))).drop (24 + n) =
      (actions ++ data).drop n := by
    rw [show 24 + n = hdr.length + (fixed.length + n) by omega, ← List.drop_drop, List.drop_left,
      ← List.drop_drop, List.drop_left]
  have hstart := hdrop 0
  rw [Nat.add_zero, List.drop_zero] at hstart
  have hrest : (hdr ++ (fixed ++ (actions ++ data))).drop (24 + actions.length) = data := by
    rw [hdrop, List.drop_left]
  have hvalues : unpackFrom OFP_PACKET_OUT_PACK_STR
      ((hdr ++ (fixed ++ (actions ++ data))).drop 8) =
        some [out.bufferId, out.inPort, actions.length] := by
    rw [← hhdr, List.drop_left, unpackFrom_of_pack hfixed]
  rw [read?, OFP_HEADER_SIZE, OFP_PACKET_OUT_SIZE, hvalues]
  simp only [hstart, hrest,
    unpackAll_of_packAll (fun a _ => OFPActionOutput.readsBack a) hactions le_rfl, Option.map_some]

/-- The frame that the message is about can be told from it. -/
structure WellFormed (out : OFPPacketOut) : Prop where
  data : out.data ≠ none ↔ out.bufferId = OFP_NO_BUFFER
  actions : out.actions = [] → out.data.getD [] = []

/-- The message says what was meant exactly if no part of the frame is lost. -/
theorem read?_eq_some_iff {out : OFPPacketOut} {hdr body : Bytes}
    (hhdr : hdr.length = OFP_HEADER_SIZE) (hbody : out.serializeBody = some body) :
    read? (hdr ++ body) = some out ↔ out.WellFormed := by
  rw [read?_of_serializeBody hhdr hbody]
  obtain ⟨bufferId, inPort, actions, data⟩ := out
  simp only [Option.some.injEq, mk.injEq, true_and]
  -- data is written without a buffer only
  by_cases hbuf : bufferId = OFP_NO_BUFFER
  swap
  · rw [if_neg hbuf]
    constructor
    · rintro rfl
      exact ⟨by simp [hbuf], fun _ => rfl⟩
    · intro h
      by_contra hdata
      exact hbuf (h.data.mp fun hnone => hdata hnone.symm)
  rw [if_pos hbuf]
  cases data with
  | none =>
      constructor
      · intro h
        cases h
      · intro h
        exact absurd rfl (h.data.mpr hbuf)
  | some data =>
      simp only [Option.getD_some, Option.some.injEq]
      -- without actions the code writes no data either
      by_cases hnil : actions = []
      swap
      · rw [if_neg hnil]
        exact ⟨fun _ => ⟨by simp [hbuf], fun h => absurd h hnil⟩, fun _ => rfl⟩
      rw [if_pos hnil]
      constructor
      · intro h
        have hlen := congrArg List.length h
        rw [List.length_drop] at hlen
        have hdata : data = [] := List.eq_nil_of_length_eq_zero (by omega)
        exact ⟨by simp [hbuf], fun _ => hdata⟩
      · intro h
        have hdata : data = [] := h.actions hnil
        rw [hdata]
        rfl

/-- The values of a message fit into their fields, and the message into its length. -/
structure InRange (out : OFPPacketOut) : Prop where
  bufferId : out.bufferId < 2 ^ 32
  inPort : out.inPort < 2 ^ 32
  actions : ∀ a ∈ out.actions, a.InRange
  length : OFP_PACKET_OUT_SIZE + out.actions.length * OFP_ACTION_OUTPUT_SIZE +
    (out.data.getD []).length < 2 ^ 16

/-- A packet-out with numbers in range is written, if it has data exactly when it names no buffer.
-/
theorem exists_serializeBody {out : OFPPacketOut}
    (hdata : out.data ≠ none ↔ out.bufferId = OFP_NO_BUFFER) (h : out.InRange) :
    ∃ bs, out.serializeBody = some bs ∧ OFP_HEADER_SIZE + bs.length < 2 ^ 16 := by
  obtain ⟨actions, hactions, hactionsLen⟩ := OFPActionOutput.exists_packAll h.actions
  have hlen := h.length
  rw [← hactionsLen] at hlen
  obtain ⟨fixed, hfixed⟩ := exists_pack (show Fits OFP_PACKET_OUT_PACK_STR
    [out.bufferId, out.inPort, actions.length] from ⟨h.bufferId, h.inPort, by omega, rfl⟩)
  have hfixedLen : fixed.length = 16 := length_of_pack hfixed
  have hno : ¬ (out.data ≠ none ∧ out.bufferId ≠ OFP_NO_BUFFER) := fun h => h.2 (hdata.mp h.1)
  refine ⟨fixed ++ (if out.actions = [] then
    (out.data.getD []).drop (OFP_PACKET_OUT_SIZE - OFP_HEADER_SIZE)
    else actions ++ out.data.getD []), ?_, ?_⟩
  · simp only [serializeBody, if_neg hno, hactions, Option.bind_some, hfixed, Option.map_some]
  · simp only [OFP_PACKET_OUT_SIZE, OFP_HEADER_SIZE] at hlen ⊢
    split
    · simp only [List.length_append, List.length_drop]
      omega
    · simp only [List.length_append]
      omega

end OFPPacketOut

/-! ## Messages -/

/-- Two bytes of a buffer, read in place. -/
theorem u16_eq_uintOf {buf : Bytes} {i : ℕ} (h : i + 2 ≤ buf.length) :
    u16 buf i = uintOf ((buf.drop i).take 2) := by
  have htake : (buf.drop i).take 2 = [buf[i], buf[i + 1]] := by
    rw [List.drop_eq_getElem_cons (show i < buf.length by omega),
      List.drop_eq_getElem_cons (show i + 1 < buf.length by omega)]
    rfl
  rw [htake, u16, u8, u8, List.getD_eq_getElem _ _ (show i < buf.length by omega),
    List.getD_eq_getElem _ _ (show i + 1 < buf.length by omega)]
  simp [uintOf, readUint]

namespace OFPMsg

def type : OFPMsg → ℕ
  | .flowMod _ => OFPT_FLOW_MOD
  | .packetOut _ => OFPT_PACKET_OUT

def serializeBody : OFPMsg → Option Bytes
  | .flowMod mod => mod.msg.serializeBody
  | .packetOut out => out.serializeBody

/-- `MsgBase.serialize`, with the transaction id that `set_xid` has given. -/
def serialize (xid : ℕ) (m : OFPMsg) : Option Bytes :=
  m.serializeBody.bind fun body =>
    (pack OFP_HEADER_PACK_STR
      [OFP_VERSION, m.type, OFP_HEADER_SIZE + body.length, xid]).map fun hdr => hdr ++ body

/-- What a message says, and its transaction id. -/
def read? (buf : Bytes) : Option (ℕ × OFPMsg) :=
  match unpackFrom OFP_HEADER_PACK_STR buf with
  | some [version, type, msgLen, xid] =>
    if version ≠ OFP_VERSION ∨ buf.length ≠ msgLen then none
    else if type = OFPT_FLOW_MOD then
      ((FlowModMsg.parser msgLen buf).bind FlowModMsg.mod?).map fun mod => (xid, .flowMod mod)
    else if type = OFPT_PACKET_OUT then
      (OFPPacketOut.read? buf).map fun out => (xid, .packetOut out)
    else none
  | _ => none

/-- A message that can be told from its bytes. -/
def WellFormed : OFPMsg → Prop
  | .flowMod mod => mod.ofMatch.WellFormed ∧ (mod.command = .delete → mod.actions = [])
  | .packetOut out => out.WellFormed

/-- The values of a message fit into their fields, and the message into its length. -/
def InRange : OFPMsg → Prop
  | .flowMod mod => mod.InRange
  | .packetOut out => out.InRange

/-- A well-formed message with numbers in range can be sent. -/
theorem exists_serialize {m : OFPMsg} (hm : m.WellFormed) (h : m.InRange) {xid : ℕ}
    (hxid : xid < 2 ^ 32) : ∃ buf, m.serialize xid = some buf := by
  obtain ⟨body, hbody, hlen⟩ : ∃ body, m.serializeBody = some body ∧
      OFP_HEADER_SIZE + body.length < 2 ^ 16 := by
    cases m with
    | flowMod mod => exact mod.exists_serializeBody hm.1 h
    | packetOut out => exact out.exists_serializeBody hm.data h
  have htype : m.type < 256 ^ 1 := by
    cases m with
    | flowMod mod => exact (by decide : OFPT_FLOW_MOD < 256 ^ 1)
    | packetOut out => exact (by decide : OFPT_PACKET_OUT < 256 ^ 1)
  obtain ⟨hdr, hhdr⟩ := exists_pack (show Fits OFP_HEADER_PACK_STR
    [OFP_VERSION, m.type, OFP_HEADER_SIZE + body.length, xid] from
      ⟨by decide, htype, hlen, hxid, rfl⟩)
  exact ⟨hdr ++ body, by rw [serialize, hbody, Option.bind_some, hhdr, Option.map_some]⟩

section Serialized

variable {xid : ℕ} {m : OFPMsg} {buf : Bytes}

/-- What is sent is a header with the version, the type, the length and the transaction, and the
body. -/
theorem serialize_eq_some (h : m.serialize xid = some buf) :
    ∃ hdr body, m.serializeBody = some body ∧ hdr.length = OFP_HEADER_SIZE ∧ buf = hdr ++ body ∧
      unpackFrom OFP_HEADER_PACK_STR buf = some [OFP_VERSION, m.type, buf.length, xid] := by
  obtain ⟨body, hbody, hmap⟩ := Option.bind_eq_some_iff.mp h
  obtain ⟨hdr, hhdr, rfl⟩ := Option.map_eq_some_iff.mp hmap
  have hlen : hdr.length = OFP_HEADER_SIZE := length_of_pack hhdr
  refine ⟨hdr, body, hbody, hlen, rfl, ?_⟩
  rw [unpackFrom_of_pack hhdr, List.length_append, hlen]

/-- What is sent is cut out of a stream as it is. -/
theorem isFrame_of_serialize (h : m.serialize xid = some buf) : openFlowFormat.IsFrame buf := by
  obtain ⟨hdr, body, -, hlen, rfl, hunpack⟩ := serialize_eq_some h
  have hheader : OFP_HEADER_SIZE ≤ (hdr ++ body).length := by
    rw [List.length_append, hlen]
    exact Nat.le_add_right _ _
  refine ⟨hheader, ?_⟩
  rw [OFP_HEADER_SIZE] at hheader
  have hu16 : u16 (hdr ++ body) 2 = (hdr ++ body).length := by
    unfold unpackFrom at hunpack
    split at hunpack
    · cases hunpack
    have hthird := congrArg (fun ns => ns.getD 2 0) (Option.some.inj hunpack)
    rw [u16_eq_uintOf (by omega)]
    simpa [OFP_HEADER_PACK_STR, unpack] using hthird
  have hframe : messageLength (hdr ++ body) = (hdr ++ body).length := by
    rw [messageLength, hu16, OFP_HEADER_SIZE, if_neg (by omega)]
  exact hframe

/-- A well-formed message is read back with its transaction. -/
theorem read?_of_serialize (h : m.serialize xid = some buf) (hm : m.WellFormed) :
    read? buf = some (xid, m) := by
  obtain ⟨hdr, body, hbody, hlen, rfl, hunpack⟩ := serialize_eq_some h
  rw [read?, hunpack]
  simp only [ne_eq, not_true_eq_false, or_self, if_false]
  cases m with
  | packetOut out =>
      rw [type, if_neg (by decide), if_pos rfl,
        (OFPPacketOut.read?_eq_some_iff hlen hbody).mpr hm, Option.map_some]
  | flowMod mod =>
      obtain ⟨hmatch, hactions⟩ := hm
      rw [type, if_pos rfl,
        FlowModMsg.parser_of_serializeBody (OFPFlowMod.wellFormed_msg hmatch) hlen hbody,
        Option.bind_some, OFPFlowMod.mod?_msg hactions, Option.map_some]

/-- A message that is read back was well formed. -/
theorem wellFormed_of_read? (h : m.serialize xid = some buf) (hread : read? buf = some (xid, m)) :
    m.WellFormed := by
  obtain ⟨hdr, body, hbody, hlen, rfl, hunpack⟩ := serialize_eq_some h
  rw [read?, hunpack] at hread
  simp only [ne_eq, not_true_eq_false, or_self, if_false] at hread
  cases m with
  | packetOut out =>
      rw [type, if_neg (by decide), if_pos rfl] at hread
      obtain ⟨out', hout, heq⟩ := Option.map_eq_some_iff.mp hread
      obtain rfl : out' = out := by simpa using heq
      exact (OFPPacketOut.read?_eq_some_iff hlen hbody).mp hout
  | flowMod mod =>
      rw [type, if_pos rfl] at hread
      obtain ⟨mod', hmod, heq⟩ := Option.map_eq_some_iff.mp hread
      obtain rfl : mod' = mod := by simpa using heq
      obtain ⟨msg, hparse, hmsg⟩ := Option.bind_eq_some_iff.mp hmod
      obtain ⟨hmatch, hactions⟩ := FlowModMsg.actions_of_mod? hmsg
      -- a match that was read is well formed, whatever the bytes
      exact ⟨hmatch ▸ FlowModMsg.wellFormed_parser_match hparse, hactions⟩

/-- A message that is sent says what was meant exactly if it can be told from its bytes. -/
theorem read?_serialize_iff (h : m.serialize xid = some buf) :
    read? buf = some (xid, m) ↔ m.WellFormed :=
  ⟨wellFormed_of_read? h, read?_of_serialize h⟩

/-- The entry that sends IPv4 frames to the controller. -/
theorem read?_serialize_iff_catchAll :
    read? ([4, 14, 0, 88, 0, 0, 0, 1] ++ List.replicate 16 0 ++
        [0, 0, 0, 0, 0, 0, 1, 44, 255, 255, 255, 255] ++ List.replicate 12 0 ++
        [0, 1, 0, 10, 128, 0, 10, 2, 8, 0] ++ List.replicate 6 0 ++
        [0, 4, 0, 24, 0, 0, 0, 0, 0, 0, 0, 16, 255, 255, 255, 253, 255, 255] ++
        List.replicate 6 0) =
          some (1, .flowMod (addFlowMod 300 ipv4Match [toController] 0 0 none)) ↔
      WellFormed (.flowMod (addFlowMod 300 ipv4Match [toController] 0 0 none)) :=
  read?_serialize_iff (by decide +kernel)

end Serialized

end OFPMsg

/-- The port of a number that a switch can name. -/
def IngressPort.ofNo? (no : ℕ) : Option IngressPort :=
  if h : (1 ≤ no ∧ no ≤ OFPP_MAX) ∨ no = OFPP_LOCAL then some ⟨no, h⟩ else none

/-- A port number fits into its field. -/
theorem IngressPort.no_lt (p : IngressPort) : p.no < 2 ^ 32 := by
  rcases p.valid with h | h
  · simp only [OFPP_MAX] at h
    omega
  · rw [h]
    decide

end OpenFlow

namespace SdnFirewall

open OpenFlow

/-! ## Frames that come in -/

/-- `OFPPacketIn.parser`, with the port that the match of the message names. -/
def PacketIn.ofMessage? (buf : Bytes) : Option PacketIn :=
  (OFPMatch.parser (buf.drop matchStart)).bind fun r =>
    (r.1.inPort.bind IngressPort.ofNo?).bind fun inPort => PacketIn.parser inPort buf.length buf

/-- A message of a switch whose match has room for the port that it names. -/
structure PacketIn.Received (msg : PacketIn) (buf : Bytes) : Prop where
  isFrame : openFlowFormat.IsFrame buf
  eq_some : PacketIn.ofMessage? buf = some msg
  matchLength : 12 ≤ matchLength buf

/-- A frame that came in can be sent out again, but for the room that the headers take. -/
theorem PacketIn.Received.bounds {msg : PacketIn} {buf : Bytes} (h : msg.Received buf) :
    msg.bufferId < 2 ^ 32 ∧ msg.data.length + 42 < 2 ^ 16 := by
  obtain ⟨r, -, hbind⟩ := Option.bind_eq_some_iff.mp h.eq_some
  obtain ⟨inPort, -, hparse⟩ := Option.bind_eq_some_iff.mp hbind
  have hlen : buf.length ≤ 65535 := by
    rw [← h.isFrame.frameLen_eq]
    exact RecvLoop.messageLength_le buf
  have hdata := congrArg List.length (PacketIn.data_parser hparse)
  rw [List.length_take, List.length_drop] at hdata
  have hround := (OFPMatch.roundUp_bounds (SdnFirewall.matchLength buf)).1
  have hmatch : 16 ≤ roundUp (SdnFirewall.matchLength buf) 8 := by
    have hlong := h.matchLength
    unfold roundUp
    omega
  have hstart : frameStart buf = 24 + roundUp (SdnFirewall.matchLength buf) 8 + 2 := rfl
  constructor
  · unfold PacketIn.parser at hparse
    split at hparse
    · cases hparse
    · rw [← Option.some.inj hparse]
      exact Packet.u32_lt buf 8
  · omega

end SdnFirewall
