import Mathlib.Data.List.GetD
import SdnFirewall.Common.Framing
import SdnFirewall.Common.Runs
import SdnFirewall.Controller.Receive

/-!
# Cutting a stream into messages

The bytes of a switch arrive in pieces. The receive loop collects them, takes off every complete
message, and remembers how many bytes the next one still lacks; it never asks the socket for more
than that, except that it asks for a whole header. What becomes of the messages, and whether the
loop goes on after one, is the subject of `Dispatch`.
-/

namespace SdnFirewall

open Common

/-- The length of the message a buffer starts with: as its header says, but a whole header. -/
def messageLength (buf : Bytes) : ℕ :=
  if u16 buf 2 < OFP_HEADER_SIZE then OFP_HEADER_SIZE else u16 buf 2

/-- What `_recv_loop` keeps of the stream between two reads. -/
structure RecvLoop where
  buf : Bytes := []
  remainingReadLen : ℕ := OFP_HEADER_SIZE

namespace RecvLoop

/-- The number of bytes the socket is asked for. -/
def readLen (l : RecvLoop) : ℕ :=
  if OFP_HEADER_SIZE < l.remainingReadLen then l.remainingReadLen else OFP_HEADER_SIZE

/-- The inner loop without what it does with a message: take off those that are complete. -/
def takeMessages : ℕ → RecvLoop → RecvLoop × List Bytes
  | 0, l => (l, [])
  | fuel + 1, l =>
    if l.buf.length < OFP_HEADER_SIZE then (l, [])
    else if l.buf.length < messageLength l.buf then
      ({ l with remainingReadLen := messageLength l.buf - l.buf.length }, [])
    else
      let r := takeMessages fuel { buf := l.buf.drop (messageLength l.buf) }
      (r.1, l.buf.take (messageLength l.buf) :: r.2)

/-- The bytes a read returned are put behind the ones that are left. Every message takes at least
a byte. -/
def receive (l : RecvLoop) (ret : Bytes) : RecvLoop × List Bytes :=
  takeMessages (l.buf ++ ret).length { l with buf := l.buf ++ ret }

/-- One turn of the loop. -/
def turn (l : RecvLoop) (ret : Bytes) : RecvLoop := (l.receive ret).1

/-- The messages one turn of the loop finds. -/
def messages (l : RecvLoop) (ret : Bytes) : List Bytes := (l.receive ret).2

end RecvLoop

/-! ## Messages as frames -/

/-- The length of a message is in its header, whatever comes behind it. -/
theorem messageLength_append {bs : Bytes} (bs' : Bytes) (h : OFP_HEADER_SIZE ≤ bs.length) :
    messageLength (bs ++ bs') = messageLength bs := by
  have h2 : 2 < bs.length := by
    rw [OFP_HEADER_SIZE] at h
    omega
  have h3 : 3 < bs.length := by
    rw [OFP_HEADER_SIZE] at h
    omega
  have hlen : u16 (bs ++ bs') 2 = u16 bs 2 := by
    simp only [u16, u8, List.getD_append _ _ _ _ h2, List.getD_append _ _ _ _ h3]
  rw [messageLength, messageLength, hlen]

/-- A message has at least a header. -/
theorem header_le_messageLength (bs : Bytes) : OFP_HEADER_SIZE ≤ messageLength bs := by
  unfold messageLength
  split
  · exact le_rfl
  · omega

/-- OpenFlow messages, as frames of a stream of bytes. -/
def openFlowFormat : FrameFormat UInt8 where
  header := OFP_HEADER_SIZE
  frameLen := messageLength
  header_pos := by decide
  header_le := header_le_messageLength
  frameLen_append := fun _ bs' h => messageLength_append bs' h

namespace RecvLoop

/-- The inner loop reads the buffer as messages and a rest. -/
theorem reads_takeMessages {fuel : ℕ} {l : RecvLoop} (hfuel : l.buf.length ≤ fuel) :
    openFlowFormat.Reads l.buf (takeMessages fuel l).2 (takeMessages fuel l).1.buf := by
  induction fuel generalizing l with
  | zero =>
      refine .of_incomplete (Or.inl ?_)
      have hpos := openFlowFormat.header_pos
      omega
  | succ fuel ih =>
      unfold takeMessages
      split
      · exact .of_incomplete (Or.inl ‹_›)
      split
      · exact .of_incomplete (Or.inr ‹_›)
      -- one message goes, and the fuel that is left is enough for the bytes that are left
      have hframe := FrameFormat.isFrame_take
        (not_or.mpr ⟨‹¬ _›, ‹¬ _›⟩ : ¬ openFlowFormat.Incomplete l.buf)
      have hhead : OFP_HEADER_SIZE ≤ messageLength l.buf := header_le_messageLength l.buf
      have hdrop : (l.buf.drop (messageLength l.buf)).length ≤ fuel := by
        rw [List.length_drop]
        rw [OFP_HEADER_SIZE] at hhead
        omega
      have hrest := ih (l := { buf := l.buf.drop (messageLength l.buf) }) hdrop
      have hcons := FrameFormat.Reads.cons hframe hrest
      rwa [show openFlowFormat.frameLen l.buf = messageLength l.buf from rfl,
        List.take_append_drop] at hcons

/-- A turn reads the messages that what was kept and what came make up. -/
theorem reads_receive (l : RecvLoop) (ret : Bytes) :
    openFlowFormat.Reads (l.buf ++ ret) (l.messages ret) (l.turn ret).buf :=
  reads_takeMessages (l := { l with buf := l.buf ++ ret }) le_rfl

/-- Over any number of turns the loop reads the whole stream. -/
theorem reads_run {l : RecvLoop} (hl : openFlowFormat.Incomplete l.buf) (rets : List Bytes) :
    openFlowFormat.Reads (l.buf ++ rets.flatten) (outputs turn messages l rets)
      (runFrom turn l rets).buf := by
  induction rets generalizing l with
  | nil =>
      rw [List.flatten_nil, List.append_nil]
      exact .of_incomplete hl
  | cons ret rets ih =>
      have hturn := reads_receive l ret
      rw [List.flatten_cons, ← List.append_assoc]
      exact hturn.append (ih hturn.incomplete)

/-! ## What is read at once -/

/-- Between two turns a part of a header has arrived, or a part of a message of known length. -/
def Waiting (l : RecvLoop) : Prop :=
  (l.buf.length < OFP_HEADER_SIZE ∧ l.remainingReadLen = OFP_HEADER_SIZE) ∨
    (OFP_HEADER_SIZE ≤ l.buf.length ∧ l.buf.length < messageLength l.buf ∧
      l.remainingReadLen = messageLength l.buf - l.buf.length)

/-- At first the loop waits for a header. -/
theorem waiting_init : ({} : RecvLoop).Waiting := Or.inl ⟨by decide, rfl⟩

/-- A loop that waits has no complete message. -/
theorem Waiting.incomplete {l : RecvLoop} (h : l.Waiting) : openFlowFormat.Incomplete l.buf :=
  h.imp (fun hheader => hheader.1) fun hmessage => hmessage.2.1

/-- After the inner loop the rest of a message is waited for. -/
theorem waiting_takeMessages {fuel : ℕ} {l : RecvLoop} (hfuel : l.buf.length ≤ fuel)
    (hl : l.buf.length < OFP_HEADER_SIZE → l.remainingReadLen = OFP_HEADER_SIZE) :
    (takeMessages fuel l).1.Waiting := by
  induction fuel generalizing l with
  | zero =>
      have hshort : l.buf.length < OFP_HEADER_SIZE := by
        rw [OFP_HEADER_SIZE]
        omega
      exact Or.inl ⟨hshort, hl hshort⟩
  | succ fuel ih =>
      unfold takeMessages
      split
      · exact Or.inl ⟨‹_›, hl ‹_›⟩
      split
      · exact Or.inr ⟨Nat.not_lt.mp ‹_›, ‹_›, rfl⟩
      have hhead : OFP_HEADER_SIZE ≤ messageLength l.buf := header_le_messageLength l.buf
      refine ih ?_ fun _ => rfl
      rw [OFP_HEADER_SIZE] at hhead
      simp only [List.length_drop]
      omega

/-- A turn ends as it began, waiting for the rest of a message. -/
theorem Waiting.turn {l : RecvLoop} (h : l.Waiting) (ret : Bytes) : (l.turn ret).Waiting := by
  refine waiting_takeMessages le_rfl fun hshort => ?_
  rw [List.length_append] at hshort
  rcases h with ⟨-, hremaining⟩ | ⟨hheader, -⟩
  · exact hremaining
  · omega

/-- A read that was not longer than it should be completes at most one message. -/
theorem Waiting.length_messages_le {l : RecvLoop} (h : l.Waiting) {ret : Bytes}
    (hret : ret.length ≤ l.readLen) : (l.messages ret).length ≤ 1 := by
  have hreads := reads_receive l ret
  generalize l.messages ret = frames at hreads
  cases frames with
  | nil => exact Nat.zero_le 1
  | cons first frames =>
      cases frames with
      | nil => exact le_rfl
      | cons second frames =>
          exfalso
          have hfirst := hreads.isFrame first List.mem_cons_self
          have hsecond := (hreads.isFrame second
            (List.mem_cons_of_mem _ List.mem_cons_self)).header_le_length
          have hbs : l.buf ++ ret = first ++ ((second :: frames).flatten ++ (l.turn ret).buf) := by
            simpa using hreads.eq_append
          have hlen := congrArg List.length hbs
          simp only [List.length_append, List.flatten_cons] at hlen
          have hheader : OFP_HEADER_SIZE ≤ first.length := hfirst.header_le_length
          change OFP_HEADER_SIZE ≤ second.length at hsecond
          have hpos : 0 < OFP_HEADER_SIZE := by decide
          unfold readLen at hret
          rcases h with ⟨hshort, hremaining⟩ | ⟨hlong, hpart, hremaining⟩
          · -- two headers do not fit into what is there and one more
            rw [hremaining, if_neg (lt_irrefl _)] at hret
            omega
          · -- the first message is the one whose header is there already
            have hsame : first.length = messageLength l.buf := by
              rw [← hfirst.frameLen_append ((second :: frames).flatten ++ (l.turn ret).buf), ← hbs]
              exact messageLength_append ret hlong
            rw [hremaining] at hret
            split at hret
            · omega
            · omega

/-- The length field has sixteen bits. -/
theorem messageLength_le (buf : Bytes) : messageLength buf ≤ 65535 := by
  have hu8 (i : ℕ) : u8 buf i < 256 := UInt8.toNat_lt _
  have h2 := hu8 2
  have h3 := hu8 (2 + 1)
  unfold messageLength u16 OFP_HEADER_SIZE
  split
  · omega
  · omega

/-- The socket is asked for no more bytes than a message can have. -/
theorem Waiting.readLen_le {l : RecvLoop} (h : l.Waiting) : l.readLen ≤ 65535 := by
  unfold readLen
  split
  swap
  · decide
  · rcases h with ⟨-, hremaining⟩ | ⟨-, -, hremaining⟩
    · rw [hremaining]
      decide
    · have hle := messageLength_le l.buf
      omega

/-- Every stream has a reading. -/
theorem exists_reads (bs : Bytes) : ∃ frames rest, openFlowFormat.Reads bs frames rest :=
  ⟨_, _, reads_receive {} bs⟩

end RecvLoop

end SdnFirewall
