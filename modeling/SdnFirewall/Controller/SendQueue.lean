import SdnFirewall.Common.Runs
import SdnFirewall.Controller.RecvLoop

/-!
# The send queue

Whoever sends to a switch first takes a permit, of which there are as many as the queue has places,
and waits while there is none; the send loop takes the entries off one by one, gives the permit
back and writes. When the loop ends, by an error or because the connection is closed, it takes the
queue away, gives all permits back, and what is sent from then on is discarded.
-/

namespace SdnFirewall

open Common

/-- An entry of the queue. -/
structure Outgoing where
  buf : Bytes
  closeSocket : Bool

/-- The capacity of the queue. -/
def SEND_Q_MAXSIZE : ℕ := 16

/-- The senders, the queue and the loop of one connection. -/
structure SendSide where
  /-- `send_q`, until it is taken away. -/
  sendQ : Option (List Outgoing) := some []
  /-- `_send_q_sem`. -/
  permits : ℕ := SEND_Q_MAXSIZE
  /-- The calls of `send` that wait for a permit. -/
  waiting : List Outgoing := []
  /-- The entry that the loop is writing. -/
  current : Option Outgoing := none
  /-- What the socket has taken. -/
  written : Bytes := []

/-- A step of a sender or of the loop. -/
inductive SendStep where
  /-- `send` is called. -/
  | call (o : Outgoing)
  /-- One of the waiting calls gets a permit; it need not be the first. -/
  | acquire (n : ℕ)
  /-- The loop takes the next entry. -/
  | get
  /-- `sendall` returns. -/
  | sent
  /-- The loop ends, with some bytes of the entry it was writing out already. -/
  | stop (partially : ℕ)

namespace SendSide

/-- The entries of the queue. -/
def queued (s : SendSide) : List Outgoing := s.sendQ.getD []

/-- The end of `_send_loop`: the queue is taken away and its permits are given back. -/
def terminate (s : SendSide) : SendSide :=
  { s with sendQ := none, permits := s.permits + s.queued.length, current := none }

/-- A call that has a permit puts its entry into the queue, or gives the permit back. -/
def put (s : SendSide) (o : Outgoing) : SendSide :=
  match s.sendQ with
  | some q => { s with sendQ := some (q ++ [o]), permits := s.permits - 1 }
  | none => s

/-- One step. A step that cannot be made is not made. -/
def step (s : SendSide) : SendStep → SendSide
  | .call o => { s with waiting := s.waiting ++ [o] }
  | .acquire n =>
    match s.waiting[n]? with
    | none => s
    | some o =>
      if s.permits = 0 then s else { s with waiting := s.waiting.eraseIdx n }.put o
  | .get =>
    match s.current, s.sendQ with
    | none, some (o :: q) => { s with sendQ := some q, permits := s.permits + 1, current := some o }
    | _, _ => s
  | .sent =>
    match s.current with
    | none => s
    | some o =>
      let s := { s with written := s.written ++ o.buf, current := none }
      if o.closeSocket then s.terminate else s
  | .stop partially =>
    if s.sendQ = none then s
    else { s with written := s.written ++ ((s.current.map Outgoing.buf).getD []).take partially
         }.terminate

/-- The entry a step puts into the queue: the call that makes it returns `True`. -/
def accepting (s : SendSide) : SendStep → List Outgoing
  | .acquire n => if s.permits = 0 ∨ s.sendQ = none then [] else s.waiting[n]?.toList
  | _ => []

/-! ## One step -/

/-- The bytes of some entries. -/
def bytesOf (os : List Outgoing) : Bytes := os.flatMap Outgoing.buf

/-- The bytes of two lists of entries, one after the other. -/
theorem bytesOf_append (os os' : List Outgoing) : bytesOf (os ++ os') = bytesOf os ++ bytesOf os' :=
  List.flatMap_append

/-- What has been taken off the queue, or is in it, is what was accepted. -/
structure Accounted (s : SendSide) (accepted : List Outgoing) : Prop where
  permits : s.permits + s.queued.length = SEND_Q_MAXSIZE
  closed : s.sendQ = none → s.current = none
  running : s.sendQ ≠ none →
    s.written ++ bytesOf s.current.toList ++ bytesOf s.queued = bytesOf accepted
  written : s.written <+: bytesOf accepted

/-- At first nothing has been accepted, and nothing written. -/
theorem accounted_init : ({} : SendSide).Accounted [] where
  permits := rfl
  closed := fun h => by cases h
  running := fun _ => rfl
  written := List.prefix_rfl

/-- When the loop ends all permits are free again, and what was written stays a beginning. -/
theorem Accounted.terminate {s : SendSide} {accepted : List Outgoing}
    (hpermits : s.permits + s.queued.length = SEND_Q_MAXSIZE)
    (hwritten : s.written <+: bytesOf accepted) : s.terminate.Accounted accepted where
  permits := hpermits
  closed := fun _ => rfl
  running := fun h => absurd rfl h
  written := hwritten

/-- Who waits does not matter. -/
theorem Accounted.of_waiting {s : SendSide} {accepted : List Outgoing} (h : s.Accounted accepted)
    (waiting : List Outgoing) : ({ s with waiting } : SendSide).Accounted accepted :=
  ⟨h.permits, h.closed, h.running, h.written⟩

/-- A call with a permit adds its entry to what was accepted, unless the queue is gone. -/
theorem Accounted.put {s : SendSide} {accepted : List Outgoing} (h : s.Accounted accepted)
    (hpermits : s.permits ≠ 0) (o : Outgoing) :
    (s.put o).Accounted (accepted ++ if s.sendQ = none then [] else [o]) := by
  have hcount := h.permits
  unfold SendSide.put
  cases hq : s.sendQ with
  | none =>
      rw [if_pos rfl, List.append_nil]
      exact h
  | some q =>
      have hrun := h.running (by simp [hq])
      rw [if_neg (by simp)]
      simp only [queued, hq, Option.getD_some] at hcount hrun
      refine ⟨?_, fun hnone => (by cases hnone), fun _ => ?_, ?_⟩
      · simp only [queued, Option.getD_some, List.length_append, List.length_singleton]
        omega
      · simp only [queued, Option.getD_some]
        rw [bytesOf_append, bytesOf_append, ← List.append_assoc, hrun]
      · rw [bytesOf_append]
        exact h.written.trans (List.prefix_append _ _)

/-- The permits that are free and the entries always make up the capacity, and nothing is written
but what was accepted, in the order in which it was. -/
theorem Accounted.step {s : SendSide} {accepted : List Outgoing} (h : s.Accounted accepted)
    (st : SendStep) : (s.step st).Accounted (accepted ++ s.accepting st) := by
  have hcount := h.permits
  cases st with
  | call o =>
      simp only [accepting, List.append_nil]
      exact h.of_waiting _
  | acquire n =>
      simp only [SendSide.step, accepting]
      cases hn : s.waiting[n]? with
      | none => simpa using h
      | some o =>
          by_cases hpermits : s.permits = 0
          · simpa [hpermits] using h
          · have hput := (h.of_waiting (s.waiting.eraseIdx n)).put hpermits o
            simpa [hpermits] using hput
  | get =>
      simp only [accepting, List.append_nil, SendSide.step]
      cases hcurrent : s.current with
      | some o => exact h
      | none =>
          cases hq : s.sendQ with
          | none => exact h
          | some q =>
              cases q with
              | nil => exact h
              | cons o q =>
                  have hrun := h.running (by simp [hq])
                  simp only [queued, hq, hcurrent, Option.getD_some] at hcount hrun
                  refine ⟨?_, fun hnone => (by cases hnone), fun _ => ?_, h.written⟩
                  · simp only [queued, Option.getD_some]
                    rw [List.length_cons] at hcount
                    omega
                  · rw [← hrun]
                    simp [bytesOf, queued]
  | sent =>
      simp only [accepting, List.append_nil, SendSide.step]
      cases hcurrent : s.current with
      | none => exact h
      | some o =>
          -- a loop that is writing has not ended
          have hopen : s.sendQ ≠ none := fun hq => by
            have hnone := h.closed hq
            rw [hcurrent] at hnone
            cases hnone
          have hrun := h.running hopen
          rw [hcurrent] at hrun
          have hstart : s.written ++ o.buf <+: bytesOf accepted :=
            ⟨bytesOf s.queued, by simpa [bytesOf] using hrun⟩
          dsimp only
          split
          · exact .terminate hcount hstart
          · refine ⟨hcount, fun hq => absurd hq hopen, fun _ => ?_, hstart⟩
            simpa [bytesOf, queued] using hrun
  | stop partially =>
      simp only [accepting, List.append_nil, SendSide.step]
      split
      · exact h
      · refine .terminate hcount ?_
        have hrun := h.running ‹_›
        cases hcurrent : s.current with
        | none => simpa using h.written
        | some o =>
            rw [hcurrent] at hrun
            -- the socket has taken the first bytes of the entry; the rest is lost with the queue
            refine ⟨o.buf.drop partially ++ bytesOf s.queued, ?_⟩
            rw [Option.map_some, Option.getD_some, List.append_assoc,
              ← List.append_assoc (o.buf.take partially), List.take_append_drop,
              ← List.append_assoc]
            simpa [bytesOf] using hrun

/-! ## Runs -/

/-- So the whole run is accounted for. -/
theorem accounted_run (sts : List SendStep) :
    (runFrom step {} sts).Accounted (outputs step accepting {} sts) := by
  induction sts using List.reverseRecOn with
  | nil => exact accounted_init
  | append_singleton sts st ih =>
      rw [runFrom_concat, outputs_concat]
      exact ih.step st

/-- Only a call makes an entry wait. -/
theorem waiting_step {s : SendSide} {st : SendStep} {o : Outgoing}
    (h : o ∈ (s.step st).waiting) : o ∈ s.waiting ∨ st = .call o := by
  cases st with
  | call o' =>
      rcases List.mem_append.mp h with h | h
      · exact Or.inl h
      · exact Or.inr (by rw [List.mem_singleton.mp h])
  | acquire n =>
      refine Or.inl ?_
      simp only [step] at h
      split at h
      · exact h
      split at h
      · exact h
      -- a call that gets a permit leaves those that wait, whether its entry is taken or not
      · unfold put at h
        split at h
        · exact List.mem_of_mem_eraseIdx h
        · exact List.mem_of_mem_eraseIdx h
  | get =>
      refine Or.inl ?_
      simp only [step] at h
      split at h
      · exact h
      · exact h
  | sent =>
      refine Or.inl ?_
      simp only [step] at h
      split at h
      · exact h
      split at h
      · exact h
      · exact h
  | stop partially =>
      refine Or.inl ?_
      simp only [step] at h
      split at h
      · exact h
      · exact h

/-- Only what waits is accepted. -/
theorem waiting_of_accepting {s : SendSide} {st : SendStep} {o : Outgoing}
    (h : o ∈ s.accepting st) : o ∈ s.waiting := by
  cases st with
  | acquire n =>
      simp only [accepting] at h
      split at h
      · exact absurd h List.not_mem_nil
      · exact List.mem_of_getElem? (Option.mem_toList.mp h)
  | _ => exact absurd h List.not_mem_nil

/-- What waits or was accepted has been sent by somebody. -/
theorem called_run (sts : List SendStep) :
    (∀ o ∈ (runFrom step {} sts).waiting, SendStep.call o ∈ sts) ∧
      ∀ o ∈ outputs step accepting {} sts, SendStep.call o ∈ sts := by
  induction sts using List.reverseRecOn with
  | nil => exact ⟨fun o ho => absurd ho List.not_mem_nil, fun o ho => absurd ho List.not_mem_nil⟩
  | append_singleton sts st ih =>
      rw [runFrom_concat, outputs_concat]
      refine ⟨fun o ho => ?_, fun o ho => ?_⟩
      · rcases waiting_step ho with ho | rfl
        · exact List.mem_append_left _ (ih.1 o ho)
        · exact List.mem_append_right _ List.mem_cons_self
      · rcases List.mem_append.mp ho with ho | ho
        · exact List.mem_append_left _ (ih.2 o ho)
        · exact List.mem_append_left _ (ih.1 o (waiting_of_accepting ho))

/-- A call that gets a permit after the end of the loop is over. -/
theorem acquire_of_terminated {s : SendSide} (hopen : s.sendQ = none) (hpermits : s.permits ≠ 0) :
    s.step (.acquire 0) = { s with waiting := s.waiting.tail } := by
  simp only [step]
  cases hw : s.waiting with
  | nil =>
      obtain ⟨sendQ, permits, waiting, current, written⟩ := s
      simp only at hw
      simp [hw]
  | cons o os => simp [hpermits, put, hopen]

/-- The messages a switch reads, by the lengths in their headers, are a prefix of the messages that
were accepted from the senders, in the order in which they were. While the loop runs nothing is
missing but what is in the queue or being written; there are never more than 16 entries; and once
the loop has ended every call that waits gets a permit and returns. -/
theorem written_run {sts : List SendStep}
    (hmsgs : ∀ o, SendStep.call o ∈ sts → openFlowFormat.IsFrame o.buf) :
    (∀ frames rest, openFlowFormat.Reads (runFrom step {} sts).written frames rest →
        frames <+: (outputs step accepting {} sts).map Outgoing.buf) ∧
      ((runFrom step {} sts).sendQ ≠ none →
        (runFrom step {} sts).written ++ bytesOf (runFrom step {} sts).current.toList ++
          bytesOf (runFrom step {} sts).queued = bytesOf (outputs step accepting {} sts)) ∧
      (runFrom step {} sts).queued.length ≤ SEND_Q_MAXSIZE ∧
      ((runFrom step {} sts).sendQ = none →
        (runFrom step (runFrom step {} sts) (List.replicate
          (runFrom step {} sts).waiting.length (.acquire 0))).waiting = []) := by
  have hacc := accounted_run sts
  have hcalled := (called_run sts).2
  generalize runFrom step {} sts = s at hacc
  generalize outputs step accepting {} sts = accepted at hacc hcalled
  refine ⟨fun frames rest hreads => ?_, hacc.running, ?_, fun hopen => ?_⟩
  · obtain ⟨more, hmore⟩ := hacc.written
    have hframes : ∀ m ∈ accepted.map Outgoing.buf, openFlowFormat.IsFrame m := by
      intro m hm
      obtain ⟨o, ho, rfl⟩ := List.mem_map.mp hm
      exact hmsgs o (hcalled o ho)
    -- what was not written completes the reading, and a stream has only one
    obtain ⟨frames', rest', hrest⟩ := RecvLoop.exists_reads (rest ++ more)
    have hwhole := hreads.append hrest
    rw [hmore, bytesOf, List.flatMap_def] at hwhole
    exact ⟨frames', ((FrameFormat.Reads.of_frames hframes).unique hwhole).1.symm⟩
  · have hcount := hacc.permits
    omega
  · have hpermits : s.permits ≠ 0 := by
      have hcount := hacc.permits
      rw [queued, hopen, SEND_Q_MAXSIZE] at hcount
      simp only [Option.getD_none, List.length_nil] at hcount
      omega
    have hdrained (waiting : List Outgoing) :
        (runFrom step { s with waiting } (List.replicate waiting.length (.acquire 0))).waiting =
          [] := by
      induction waiting with
      | nil => rfl
      | cons o waiting ih =>
          rw [List.length_cons, List.replicate_succ, runFrom_cons,
            acquire_of_terminated (s := { s with waiting := o :: waiting }) hopen hpermits]
          exact ih
    exact hdrained s.waiting

/-- An echo request with its number. -/
def echoRequest (n : UInt8) : Bytes := [4, 2, 0, 8, 0, 0, 0, n]

/-- An echo request is one whole message. -/
theorem isFrame_echoRequest (n : UInt8) : openFlowFormat.IsFrame (echoRequest n) :=
  ⟨le_rfl, by simp [openFlowFormat, messageLength, u16, u8, echoRequest, OFP_HEADER_SIZE]⟩

/-- Eighteen echo requests are sent at once, one more than the queue and the loop can hold. The last
overtakes the one before it, and the second is being written when the connection breaks. -/
def fullQueueRun : List SendStep :=
  (List.range 18).map (fun n => .call ⟨echoRequest (UInt8.ofNat n), false⟩) ++
    List.replicate 17 (.acquire 0) ++ [.get, .sent, .acquire 1, .get, .stop 3]

/-- The first request has been written and the second only in part; the call that still waits
returns. -/
theorem written_run_fullQueueRun :
    (runFrom step {} fullQueueRun).written = echoRequest 0 ++ [4, 2, 0] ∧
      [echoRequest 0] <+: (outputs step accepting {} fullQueueRun).map Outgoing.buf ∧
      (runFrom step {} (fullQueueRun.take 35)).queued.length = SEND_Q_MAXSIZE ∧
      (runFrom step {} fullQueueRun).waiting = [⟨echoRequest 16, false⟩] ∧
      (runFrom step (runFrom step {} fullQueueRun) [.acquire 0]).waiting = [] := by
  have hmsgs : ∀ o, SendStep.call o ∈ fullQueueRun → openFlowFormat.IsFrame o.buf := by
    intro o ho
    simp only [fullQueueRun, List.mem_append, List.mem_map, List.mem_replicate, List.mem_cons,
      SendStep.call.injEq, reduceCtorEq, List.not_mem_nil, and_false, or_false] at ho
    obtain ⟨n, -, rfl⟩ := ho
    exact isFrame_echoRequest _
  have hreads : openFlowFormat.Reads (runFrom step {} fullQueueRun).written [echoRequest 0]
      [4, 2, 0] := .cons (isFrame_echoRequest 0) (.of_incomplete (by decide))
  obtain ⟨hstart, -, -, hdrained⟩ := written_run hmsgs
  exact ⟨by decide, hstart _ _ hreads, by decide, rfl, hdrained rfl⟩

end SendSide

end SdnFirewall
