import SdnFirewall.Controller.Connection
import SdnFirewall.Controller.RecvLoop

/-!
# From the bytes of a switch to the handlers

The receive loop parses each complete message and hands it to the handlers before it looks at the
next one. A message of a version that nobody parses, a truncated one, or a handler that raises ends
the loop and the connection with it; a message that fails to parse in any other way is dropped.
-/

namespace SdnFirewall

open Common

/-! ## One message -/

/-- How the parser of a version fails: `OFPTruncatedMessage` is passed on, anything else is only
logged. -/
inductive ParseFailure where
  | truncated
  | other
deriving DecidableEq

/-- `_MSG_PARSERS`: the parser of each version that has one. -/
abbrev MsgParsers := ℕ → Option (Bytes → Except ParseFailure (Option SwitchMsg))

/-- Why `ofproto_parser.msg` raises. -/
inductive MsgError where
  | unknownVersion (version : ℕ)
  | truncatedMessage
deriving DecidableEq

/-- `ofproto_parser.msg`: the message, if it could be parsed. -/
def ofprotoMsg (parsers : MsgParsers) (buf : Bytes) : Except MsgError (Option SwitchMsg) :=
  match parsers (u8 buf 0) with
  | none => .error (.unknownVersion (u8 buf 0))
  | some msgParser =>
    match msgParser buf with
    | .ok m => .ok m
    | .error .truncated => .error .truncatedMessage
    | .error .other => .ok none

/-! ## The loop -/

/-- `_recv_loop`, with the connection whose handlers it calls. -/
structure Receiver where
  loop : RecvLoop := {}
  conn : Connection := {}

namespace Receiver

/-- The loop has ended, and what it had collected is gone. -/
def ended (r : Receiver) : Receiver := { conn := r.conn.close }

variable (parsers : MsgParsers)

/-- The inner loop: parse and handle the messages that are complete. It also answers with those that
were handed to the handlers. -/
def takeMessages : ℕ → Receiver → Receiver × List SwitchMsg
  | 0, r => (r, [])
  | fuel + 1, r =>
    let buf := r.loop.buf
    if buf.length < OFP_HEADER_SIZE then (r, [])
    else if buf.length < messageLength buf then
      ({ r with loop := { r.loop with remainingReadLen := messageLength buf - buf.length } }, [])
    else
      match ofprotoMsg parsers (buf.take (messageLength buf)) with
      | .error _ => (r.ended, [])
      | .ok none => takeMessages fuel { r with loop := { buf := buf.drop (messageLength buf) } }
      | .ok (some m) =>
        match r.conn.handlers m with
        | none => (r.ended, [m])
        | some (conn, _) =>
          let next := takeMessages fuel { loop := { buf := buf.drop (messageLength buf) }, conn }
          (next.1, m :: next.2)

/-- What a read returned is put behind what is left. An empty read ends the loop, and a dead
connection is not read from. -/
def receive (r : Receiver) (ret : Bytes) : Receiver × List SwitchMsg :=
  if r.conn.state = .dead then (r, [])
  else if ret = [] then (r.ended, [])
  else takeMessages parsers (r.loop.buf ++ ret).length
    { r with loop := { r.loop with buf := r.loop.buf ++ ret } }

/-- One turn of the loop. -/
def turn (r : Receiver) (ret : Bytes) : Receiver := (r.receive parsers ret).1

/-- The messages one turn of the loop hands to the handlers. -/
def messages (r : Receiver) (ret : Bytes) : List SwitchMsg := (r.receive parsers ret).2

end Receiver

/-! ## Messages that arrive by themselves -/

namespace Connection

variable (parsers : MsgParsers)

/-- The connection after a message that arrived by itself. -/
def deal (conn : Connection) (frame : Bytes) : Connection :=
  if conn.state = .dead then conn
  else match ofprotoMsg parsers frame with
    | .error _ => conn.close
    | .ok none => conn
    | .ok (some m) => conn.dispatch m

/-- The message that the handlers are then handed, if any. -/
def handed (conn : Connection) (frame : Bytes) : List SwitchMsg :=
  if conn.state = .dead then []
  else match ofprotoMsg parsers frame with
    | .ok (some m) => [m]
    | _ => []

end Connection

section Deal

variable {parsers : MsgParsers} {conn : Connection} {frame : Bytes}

/-- Closing a dead connection changes nothing. -/
theorem close_eq_self (h : conn.state = .dead) : conn.close = conn := by
  cases conn
  cases h
  rfl

/-- A dead connection stays as it is. -/
theorem runFrom_deal_dead (h : conn.state = .dead) (frames : List Bytes) :
    runFrom (Connection.deal parsers) conn frames = conn := by
  induction frames with
  | nil => rfl
  | cons frame frames ih => rw [runFrom_cons, Connection.deal, if_pos h, ih]

/-- Nothing is handed to the handlers of a dead connection. -/
theorem outputs_handed_dead (h : conn.state = .dead) (frames : List Bytes) :
    outputs (Connection.deal parsers) (Connection.handed parsers) conn frames = [] := by
  induction frames with
  | nil => rfl
  | cons frame frames ih =>
      rw [outputs_cons, Connection.handed, if_pos h, Connection.deal, if_pos h, ih]
      rfl

/-- A message is handed on at most once. -/
theorem length_outputs_handed_le (conn : Connection) (frames : List Bytes) :
    (outputs (Connection.deal parsers) (Connection.handed parsers) conn frames).length ≤
      frames.length := by
  induction frames generalizing conn with
  | nil => exact le_rfl
  | cons frame frames ih =>
      have hone : (conn.handed parsers frame).length ≤ 1 := by
        unfold Connection.handed
        split
        · exact Nat.zero_le 1
        · split <;> simp
      have hrest := ih (conn.deal parsers frame)
      rw [outputs_cons, List.length_append, List.length_cons]
      omega

end Deal

/-! ## The loop deals with one message after the other -/

namespace Receiver

section Simulation

variable {r : Receiver} {l : RecvLoop} {conn : Connection}

/-- The receiver is where the loop over frames is, as long as its connection lives. -/
structure Follows (r : Receiver) (l : RecvLoop) (conn : Connection) : Prop where
  conn_eq : r.conn = conn
  loop_eq : r.loop = if conn.state = .dead then {} else l

/-- While its connection lives, the receiver is determined by what it follows. -/
theorem Follows.eq_of_alive (h : r.Follows l conn) (halive : conn.state ≠ .dead) :
    r = ⟨l, conn⟩ := by
  obtain ⟨hconn, hloop⟩ := h
  rw [if_neg halive] at hloop
  cases r
  cases hconn
  cases hloop
  rfl

/-- A loop that has ended has nothing left to follow. -/
theorem follows_ended (r : Receiver) (l : RecvLoop) : r.ended.Follows l r.conn.close := ⟨rfl, rfl⟩

/-- The inner loop cuts the buffer into messages and deals with one after the other. -/
theorem follows_takeMessages (parsers : MsgParsers) {conn : Connection}
    (halive : conn.state ≠ .dead) (fuel : ℕ) (l : RecvLoop) :
    (takeMessages parsers fuel ⟨l, conn⟩).1.Follows (l.takeMessages fuel).1
        (runFrom (Connection.deal parsers) conn (l.takeMessages fuel).2) ∧
      (takeMessages parsers fuel ⟨l, conn⟩).2 =
        outputs (Connection.deal parsers) (Connection.handed parsers) conn
          (l.takeMessages fuel).2 := by
  induction fuel generalizing l conn with
  | zero => exact ⟨⟨rfl, (if_neg halive).symm⟩, rfl⟩
  | succ fuel ih =>
      unfold takeMessages RecvLoop.takeMessages
      dsimp only
      by_cases hheader : l.buf.length < OFP_HEADER_SIZE
      · rw [if_pos hheader, if_pos hheader]
        exact ⟨⟨rfl, (if_neg halive).symm⟩, rfl⟩
      rw [if_neg hheader, if_neg hheader]
      by_cases hmessage : l.buf.length < messageLength l.buf
      · rw [if_pos hmessage, if_pos hmessage]
        exact ⟨⟨rfl, (if_neg halive).symm⟩, rfl⟩
      rw [if_neg hmessage, if_neg hmessage]
      -- one message is complete: what it comes to decides whether the loop goes on
      dsimp only
      rw [runFrom_cons, outputs_cons, Connection.deal, if_neg halive, Connection.handed,
        if_neg halive]
      cases hmsg : ofprotoMsg parsers (l.buf.take (messageLength l.buf)) with
      | error e =>
          have hdead : conn.close.state = .dead := rfl
          dsimp only
          rw [runFrom_deal_dead hdead, outputs_handed_dead hdead]
          exact ⟨follows_ended .., rfl⟩
      | ok m? =>
          cases m? with
          | none => exact ih halive _
          | some m =>
              dsimp only
              rw [Connection.dispatch]
              cases hhandlers : conn.handlers m with
              | none =>
                  have hdead : conn.close.state = .dead := rfl
                  dsimp only
                  rw [runFrom_deal_dead hdead, outputs_handed_dead hdead]
                  exact ⟨follows_ended .., rfl⟩
              | some next =>
                  obtain ⟨conn', replies⟩ := next
                  have halive' := Connection.state_ne_dead_of_handlers halive hhandlers
                  obtain ⟨hfollows, hout⟩ := ih halive' { buf := l.buf.drop (messageLength l.buf) }
                  exact ⟨hfollows, congrArg (m :: ·) hout⟩

/-- So does a turn that reads something. -/
theorem Follows.turn (parsers : MsgParsers) (h : r.Follows l conn) {ret : Bytes} (hret : ret ≠ []) :
    (r.turn parsers ret).Follows (l.turn ret)
        (runFrom (Connection.deal parsers) conn (l.messages ret)) ∧
      r.messages parsers ret = outputs (Connection.deal parsers) (Connection.handed parsers) conn
        (l.messages ret) := by
  by_cases hdead : conn.state = .dead
  · have hread : r.receive parsers ret = (r, []) := if_pos (h.conn_eq ▸ hdead)
    rw [Receiver.turn, messages, hread, runFrom_deal_dead hdead, outputs_handed_dead hdead]
    refine ⟨⟨h.conn_eq, ?_⟩, rfl⟩
    rw [h.loop_eq, if_pos hdead, if_pos hdead]
  · obtain rfl := h.eq_of_alive hdead
    have hread : receive parsers ⟨l, conn⟩ ret =
        takeMessages parsers (l.buf ++ ret).length ⟨{ l with buf := l.buf ++ ret }, conn⟩ := by
      rw [receive, if_neg hdead, if_neg hret]
    rw [Receiver.turn, messages, hread]
    exact follows_takeMessages parsers hdead ..

/-- Over any number of reads, the loop deals with the messages that the loop over frames finds. -/
theorem Follows.run (parsers : MsgParsers) (h : r.Follows l conn) {rets : List Bytes}
    (hrets : ∀ ret ∈ rets, ret ≠ []) :
    (runFrom (Receiver.turn parsers) r rets).Follows (runFrom RecvLoop.turn l rets)
        (runFrom (Connection.deal parsers) conn (outputs RecvLoop.turn RecvLoop.messages l rets)) ∧
      outputs (Receiver.turn parsers) (messages parsers) r rets =
        outputs (Connection.deal parsers) (Connection.handed parsers) conn
          (outputs RecvLoop.turn RecvLoop.messages l rets) := by
  induction rets generalizing r l conn with
  | nil => exact ⟨h, rfl⟩
  | cons ret rets ih =>
      obtain ⟨hret, hrets⟩ := List.forall_mem_cons.mp hrets
      obtain ⟨hturn, hout⟩ := h.turn parsers hret
      obtain ⟨hrun, hrest⟩ := ih hturn hrets
      rw [runFrom_cons, outputs_cons, runFrom_cons, outputs_cons, runFrom_append, outputs_append,
        hout, hrest]
      exact ⟨hrun, rfl⟩

end Simulation

/-! ## Whole runs -/

/-- What a switch sends before it hangs up. -/
def heard (rets : List Bytes) : List Bytes := rets.takeWhile fun ret => ret ≠ []

/-- Nothing that is heard is empty. -/
theorem ne_nil_of_mem_heard (rets : List Bytes) : ∀ ret ∈ heard rets, ret ≠ [] :=
  fun ret hret => by simpa using List.all_eq_true.mp List.all_takeWhile ret hret

section Run

variable (parsers : MsgParsers)

/-- Nothing is read from a dead connection. -/
theorem receive_dead {r : Receiver} (h : r.conn.state = .dead) (ret : Bytes) :
    r.receive parsers ret = (r, []) :=
  if_pos h

/-- A dead connection stays as it is, and its loop hands on nothing. -/
theorem run_dead {r : Receiver} (h : r.conn.state = .dead) (rets : List Bytes) :
    runFrom (turn parsers) r rets = r ∧ outputs (turn parsers) (messages parsers) r rets = [] := by
  induction rets with
  | nil => exact ⟨rfl, rfl⟩
  | cons ret rets ih =>
      have hturn : r.turn parsers ret = r := congrArg Prod.fst (receive_dead parsers h ret)
      have hnone : r.messages parsers ret = [] := congrArg Prod.snd (receive_dead parsers h ret)
      rw [runFrom_cons, outputs_cons, hturn, hnone]
      exact ih

/-- The first empty read ends the loop. -/
theorem run_heard (r : Receiver) (rets : List Bytes) :
    outputs (turn parsers) (messages parsers) r rets =
        outputs (turn parsers) (messages parsers) r (heard rets) ∧
      (runFrom (turn parsers) r rets).conn =
        if [] ∈ rets then (runFrom (turn parsers) r (heard rets)).conn.close
        else (runFrom (turn parsers) r (heard rets)).conn := by
  induction rets generalizing r with
  | nil => exact ⟨rfl, rfl⟩
  | cons ret rets ih =>
      by_cases hret : ret = []
      -- an empty read closes the connection, and a closed one reads no more
      · subst hret
        have hend : (r.turn parsers []).conn = r.conn.close ∧ r.messages parsers [] = [] := by
          by_cases hdead : r.conn.state = .dead
          · rw [turn, messages, receive_dead parsers hdead]
            exact ⟨(close_eq_self hdead).symm, rfl⟩
          · rw [turn, messages, receive, if_neg hdead, if_pos rfl]
            exact ⟨rfl, rfl⟩
        have hdead : (r.turn parsers []).conn.state = .dead := by rw [hend.1]; rfl
        obtain ⟨hrun, hout⟩ := run_dead parsers hdead rets
        rw [outputs_cons, runFrom_cons, hrun, hout, hend.1, hend.2, if_pos List.mem_cons_self]
        exact ⟨rfl, rfl⟩
      · have hheard : heard (ret :: rets) = ret :: heard rets :=
          List.takeWhile_cons_of_pos (by simpa using hret)
        have hmem : [] ∈ ret :: rets ↔ [] ∈ rets := by simp [Ne.symm hret]
        obtain ⟨hout, hconn⟩ := ih (r.turn parsers ret)
        rw [hheard, outputs_cons, outputs_cons, runFrom_cons, runFrom_cons, hout, hconn]
        refine ⟨rfl, ?_⟩
        simp only [hmem]

/-- However the messages of a switch are cut up on their way, those that have arrived completely are
dealt with in order, each as if it had arrived by itself, up to the first that ends the loop. -/
theorem dispatched_run {msgs : List Bytes} (hmsgs : ∀ m ∈ msgs, openFlowFormat.IsFrame m)
    {rets : List Bytes} (harrived : (heard rets).flatten <+: msgs.flatten) :
    ∃ got, got <+: msgs ∧
      (∃ rest, (heard rets).flatten = got.flatten ++ rest ∧ openFlowFormat.Incomplete rest) ∧
      ((heard rets).flatten = msgs.flatten → got = msgs) ∧
      outputs (turn parsers) (messages parsers) {} rets =
        outputs (Connection.deal parsers) (Connection.handed parsers) {} got ∧
      (runFrom (turn parsers) {} rets).conn =
        if [] ∈ rets then (runFrom (Connection.deal parsers) {} got).close
        else runFrom (Connection.deal parsers) {} got := by
  have hreads := RecvLoop.reads_run RecvLoop.waiting_init.incomplete (heard rets)
  rw [show (({} : RecvLoop).buf ++ (heard rets).flatten) = (heard rets).flatten from rfl] at hreads
  have hstart : Follows {} {} {} := ⟨rfl, rfl⟩
  obtain ⟨hfollows, hout⟩ := hstart.run parsers (ne_nil_of_mem_heard rets)
  obtain ⟨hheard, hconn⟩ := run_heard parsers {} rets
  rw [hfollows.conn_eq] at hconn
  obtain ⟨more, hmore⟩ := harrived
  refine ⟨_, ?_, ⟨_, hreads.eq_append, hreads.incomplete⟩, fun hall => ?_, hheard.trans hout, hconn⟩
  -- what is still to come completes the reading, and a stream has only one
  · obtain ⟨frames, rest, hrest⟩ :=
      RecvLoop.exists_reads ((runFrom RecvLoop.turn {} (heard rets)).buf ++ more)
    have hwhole := hreads.append hrest
    rw [hmore] at hwhole
    obtain ⟨heq, -⟩ := (FrameFormat.Reads.of_frames hmsgs).unique hwhole
    exact ⟨frames, heq.symm⟩
  · rw [hall] at hreads
    exact (hreads.unique (FrameFormat.Reads.of_frames hmsgs)).1

/-- Between two turns the loop always waits for the rest of a message. -/
theorem waiting_turn {r : Receiver} (h : r.loop.Waiting) (ret : Bytes) :
    (r.turn parsers ret).loop.Waiting := by
  by_cases hdead : r.conn.state = .dead
  · rw [turn, receive_dead parsers hdead]
    exact h
  by_cases hret : ret = []
  · rw [turn, receive, if_neg hdead, if_pos hret]
    exact RecvLoop.waiting_init
  · have hfollows : r.Follows r.loop r.conn := ⟨rfl, (if_neg hdead).symm⟩
    rw [(hfollows.turn parsers hret).1.loop_eq]
    split
    · exact RecvLoop.waiting_init
    · exact h.turn ret

/-- A read of no more than was asked for completes at most one message. -/
theorem length_messages_le {r : Receiver} (h : r.loop.Waiting) {ret : Bytes}
    (hlen : ret.length ≤ r.loop.readLen) : (r.messages parsers ret).length ≤ 1 := by
  by_cases hdead : r.conn.state = .dead
  · rw [messages, receive_dead parsers hdead]
    exact Nat.zero_le 1
  by_cases hret : ret = []
  · rw [messages, receive, if_neg hdead, if_pos hret]
    exact Nat.zero_le 1
  · have hfollows : r.Follows r.loop r.conn := ⟨rfl, (if_neg hdead).symm⟩
    rw [(hfollows.turn parsers hret).2]
    exact (length_outputs_handed_le ..).trans (h.length_messages_le hlen)

/-- As long as the socket never returns more than it was asked for, every turn hands on at most one
message and asks for no more bytes than a message can have, and what is kept between two turns is
less than one message. -/
theorem bounded_run {rets : List Bytes}
    (hsocket : Along (turn parsers) (fun r ret => ret.length ≤ r.loop.readLen) {} rets) :
    Along (turn parsers) (fun r ret => (r.messages parsers ret).length ≤ 1 ∧
      r.loop.readLen ≤ 65535 ∧
      openFlowFormat.Incomplete (r.turn parsers ret).loop.buf) {} rets := by
  have hwaiting := hsocket.strengthen (fun r => r.loop.Waiting)
    (fun r ret h _ => waiting_turn parsers h ret) RecvLoop.waiting_init
  exact hwaiting.imp fun r ret h =>
    ⟨length_messages_le parsers h.1 h.2, h.1.readLen_le, (waiting_turn parsers h.1 ret).incomplete⟩

end Run

/-! ## A switch that is not quite right -/

/-- A parser of version 4 that knows hellos and echo requests. -/
def echoParsers : MsgParsers
  | 4 => some fun buf =>
    match u8 buf 1 with
    | 0 => .ok (some (.hello 4 []))
    | 2 => .ok (some (.echoRequest (u32 buf 4) (buf.drop 8)))
    | _ => .error .other
  | _ => none

/-- A hello, a message of no type, an echo request, a message of version 7, and another echo
request. -/
def oddMessages : List Bytes :=
  [[4, 0, 0, 8, 0, 0, 0, 1], [4, 200, 0, 8, 0, 0, 0, 2], [4, 2, 0, 10, 0, 0, 0, 3, 9, 9],
    [7, 0, 0, 8, 0, 0, 0, 4], [4, 2, 0, 8, 0, 0, 0, 5]]

/-- They arrive in pieces none of which is one of them. -/
def oddPieces : List Bytes :=
  [[4, 0, 0], [8, 0, 0, 0, 1, 4, 200, 0, 8, 0, 0, 0, 2, 4], [2, 0, 10, 0, 0, 0, 3, 9, 9, 7, 0, 0],
    [8, 0, 0, 0, 4, 4, 2, 0, 8, 0, 0, 0, 5]]

/-- The message of no type is dropped, the one of version 7 ends the loop, and the last one is lost.
-/
theorem dispatched_run_oddPieces :
    outputs (turn echoParsers) (messages echoParsers) {} oddPieces =
        [.hello 4 [], .echoRequest 3 [9, 9]] ∧
      (runFrom (turn echoParsers) {} oddPieces).conn.state = .dead := by
  have hframes : ∀ m ∈ oddMessages, openFlowFormat.IsFrame m := by
    intro m hm
    simp only [oddMessages, List.mem_cons, List.not_mem_nil, or_false] at hm
    rcases hm with rfl | rfl | rfl | rfl | rfl <;> exact ⟨by decide, by decide⟩
  have harrived : (heard oddPieces).flatten <+: oddMessages.flatten := ⟨[], rfl⟩
  obtain ⟨got, -, -, hall, hout, hconn⟩ := dispatched_run echoParsers hframes harrived
  obtain rfl := hall rfl
  rw [hout, hconn]
  exact ⟨rfl, rfl⟩

/-- Each read returns what was asked for, or less. -/
theorem bounded_run_oddPieces :
    Along (turn echoParsers) (fun r ret => (r.messages echoParsers ret).length ≤ 1 ∧
      r.loop.readLen ≤ 65535 ∧
      openFlowFormat.Incomplete (r.turn echoParsers ret).loop.buf) {}
      [[4, 2, 0], [10, 0, 0], [0, 3, 9, 9, 7], [0, 0, 8, 0, 0, 0, 4]] :=
  bounded_run echoParsers (by decide)

end Receiver

end SdnFirewall
