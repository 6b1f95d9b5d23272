import Mathlib.Data.List.Induction
import Mathlib.Logic.Function.Basic

/-!
# Scanning capped streams

Chunks arrive on several channels. Each channel keeps the first `cap` elements of what it has
carried, and after every chunk the buffer of its channel is put to a test; after the first hit
nothing is buffered any more. Chunk by chunk this comes to one test of each whole stream, cut at the
cap, whenever the test is kept by extension.
-/

namespace Common

variable {ι α : Type*}

/-- Append as much of a chunk as fits under the cap. -/
def feed (cap : ℕ) (buf chunk : List α) : List α := buf ++ chunk.take (cap - buf.length)

/-- Feeding chunk by chunk keeps the first `cap` elements of the whole stream. -/
theorem feed_take (cap : ℕ) (s chunk : List α) :
    feed cap (s.take cap) chunk = (s ++ chunk).take cap := by
  have hlen : cap - (s.take cap).length = cap - s.length := by
    rw [List.length_take]
    omega
  rw [feed, hlen, List.take_append]

/-- Feeding two chunks is feeding them as one. -/
theorem feed_feed (cap : ℕ) (buf chunk chunk' : List α) :
    feed cap (feed cap buf chunk) chunk' = feed cap buf (chunk ++ chunk') := by
  have hroom : cap - (feed cap buf chunk).length = cap - buf.length - chunk.length := by
    rw [feed, List.length_append, List.length_take]
    omega
  rw [feed, hroom, feed, feed, List.append_assoc, List.take_append]

@[simp] theorem feed_nil (cap : ℕ) (buf : List α) : feed cap buf [] = buf := by simp [feed]

/-- An empty buffer takes as much of a chunk as it has room for. -/
theorem nil_feed (cap : ℕ) (chunk : List α) : feed cap [] chunk = chunk.take cap := by simp [feed]

/-- A buffer within its cap stays within it. -/
theorem length_feed_le {cap : ℕ} {buf : List α} (h : buf.length ≤ cap) (chunk : List α) :
    (feed cap buf chunk).length ≤ cap := by
  rw [feed, List.length_append, List.length_take]
  omega

/-- The buffers of the channels, and whether there has been a hit. -/
@[ext]
structure Scan (ι α : Type*) where
  buf : ι → List α
  hit : Bool

/-- What a channel carries. -/
def channel [DecidableEq ι] (i : ι) (cs : List (ι × List α)) : List α :=
  (cs.filter fun c => c.1 = i).flatMap Prod.snd

namespace Scan

variable [DecidableEq ι]

/-- Nothing heard yet. -/
def start : Scan ι α := ⟨fun _ => [], false⟩

/-- One chunk: it is ignored after a hit, and so is an empty one. -/
def step (cap : ℕ) (p : List α → Bool) (s : Scan ι α) (c : ι × List α) : Scan ι α :=
  if s.hit = true ∨ c.2 = [] then s
  else
    { buf := Function.update s.buf c.1 (feed cap (s.buf c.1) c.2)
      hit := p (feed cap (s.buf c.1) c.2) }

/-- A list of chunks. -/
def run (cap : ℕ) (p : List α → Bool) (s : Scan ι α) (cs : List (ι × List α)) : Scan ι α :=
  cs.foldl (step cap p) s

/-- The chunks that arrive before or with the first hit. -/
def heard (cap : ℕ) (p : List α → Bool) : Scan ι α → List (ι × List α) → List (ι × List α)
  | _, [] => []
  | s, c :: cs => (if s.hit then [] else [c]) ++ heard cap p (s.step cap p c) cs

end Scan

section Channel

variable [DecidableEq ι] (i : ι)

@[simp] theorem channel_nil : channel i ([] : List (ι × List α)) = [] := rfl

@[simp] theorem channel_append (cs cs' : List (ι × List α)) :
    channel i (cs ++ cs') = channel i cs ++ channel i cs' := by
  rw [channel, List.filter_append, List.flatMap_append]
  rfl

/-- One chunk is all of its own channel and nothing of another. -/
theorem channel_singleton (c : ι × List α) : channel i [c] = if c.1 = i then c.2 else [] := by
  by_cases h : c.1 = i <;> simp [channel, h]

end Channel

namespace Scan

variable [DecidableEq ι] {cap : ℕ} {p : List α → Bool}

/-- Chunks in two parts are scanned one part after the other. -/
theorem run_append (s : Scan ι α) (cs cs' : List (ι × List α)) :
    s.run cap p (cs ++ cs') = (s.run cap p cs).run cap p cs' :=
  List.foldl_append

/-- The last chunk is scanned where the ones before it lead. -/
theorem run_concat (s : Scan ι α) (cs : List (ι × List α)) (c : ι × List α) :
    s.run cap p (cs ++ [c]) = (s.run cap p cs).step cap p c :=
  List.foldl_append

/-- What is heard of two parts is what is heard of each in its turn. -/
theorem heard_append (s : Scan ι α) (cs cs' : List (ι × List α)) :
    s.heard cap p (cs ++ cs') = s.heard cap p cs ++ (s.run cap p cs).heard cap p cs' := by
  induction cs generalizing s with
  | nil => rfl
  | cons c cs ih => rw [List.cons_append, heard, ih, heard, List.append_assoc]; rfl

/-- A chunk is heard until there has been a hit. -/
theorem heard_singleton (s : Scan ι α) (c : ι × List α) :
    s.heard cap p [c] = if s.hit then [] else [c] :=
  List.append_nil _

/-- A buffer after one chunk: its channel has carried that chunk, unless there was a hit before. -/
theorem buf_step (s : Scan ι α) (c : ι × List α) (i : ι) :
    (s.step cap p c).buf i =
      if s.hit then s.buf i else feed cap (s.buf i) (channel i [c]) := by
  have hnil : feed cap (s.buf i) [] = s.buf i := by simp [feed]
  rw [channel_singleton, step]
  by_cases hhit : s.hit = true
  · rw [if_pos (Or.inl hhit), if_pos hhit]
  by_cases hc : c.2 = []
  · rw [if_pos (Or.inr hc), if_neg hhit, hc, ite_self, hnil]
  · rw [if_neg (not_or.mpr ⟨hhit, hc⟩), if_neg hhit]
    by_cases hi : c.1 = i
    · subst hi
      rw [if_pos rfl]
      exact Function.update_self ..
    · rw [if_neg hi, hnil]
      exact Function.update_of_ne (Ne.symm hi) ..

/-- A buffer holds what its channel carried before or with the first hit, up to the cap. -/
theorem buf_run (cs : List (ι × List α)) (i : ι) :
    ((start : Scan ι α).run cap p cs).buf i =
      (channel i ((start : Scan ι α).heard cap p cs)).take cap := by
  induction cs using List.reverseRecOn with
  | nil => simp [run, start, heard]
  | append_singleton cs c ih =>
      rw [run_concat, buf_step, heard_append, heard_singleton, channel_append]
      by_cases hhit : ((start : Scan ι α).run cap p cs).hit = true
      · rw [if_pos hhit, if_pos hhit, channel_nil, List.append_nil, ih]
      · rw [if_neg hhit, if_neg hhit, ih, feed_take]

/-- Without a hit, every buffer has been fed what its channel carried. -/
theorem buf_run_of_not_hit (s : Scan ι α) {cs : List (ι × List α)}
    (h : (s.run cap p cs).hit = false) (i : ι) :
    (s.run cap p cs).buf i = feed cap (s.buf i) (channel i cs) := by
  induction cs using List.reverseRecOn with
  | nil => exact (feed_nil cap _).symm
  | append_singleton cs c ih =>
      rw [run_concat] at h ⊢
      have hopen : (s.run cap p cs).hit = false := by
        by_contra hhit
        rw [Bool.not_eq_false] at hhit
        rw [step, if_pos (Or.inl hhit), hhit] at h
        exact absurd h (by simp)
      rw [buf_step, if_neg (by simp [hopen]), ih hopen, feed_feed, channel_append]

/-- For a test that is kept by extension, scanning chunk by chunk hits exactly when there was a hit
before or one of the streams passes the test in its buffer: neither the cuts between the chunks nor
the order in which the channels were heard matter. -/
theorem hit_run (hext : ∀ b b', p b = true → p (b ++ b') = true) (s : Scan ι α)
    (cs : List (ι × List α)) :
    (s.run cap p cs).hit = true ↔
      s.hit = true ∨ ∃ i, channel i cs ≠ [] ∧ p (feed cap (s.buf i) (channel i cs)) = true := by
  induction cs using List.reverseRecOn with
  | nil => simp [run]
  | append_singleton cs c ih =>
      have hsplit : ∀ i, channel i (cs ++ [c]) = channel i cs ++ if c.1 = i then c.2 else [] := by
        intro i
        rw [channel_append, channel_singleton]
      rw [run_concat, step]
      cases hhit : (s.run cap p cs).hit with
      | true =>
          -- the stream that was hit before has only grown
          rw [if_pos (Or.inl rfl), hhit]
          refine iff_of_true rfl ?_
          rcases ih.mp hhit with hs | ⟨i, hne, hi⟩
          · exact Or.inl hs
          · refine Or.inr ⟨i, fun hnil => hne ?_, ?_⟩
            · rw [hsplit, List.append_eq_nil_iff] at hnil
              exact hnil.1
            · rw [hsplit, ← feed_feed, feed]
              exact hext _ _ hi
      | false =>
          have hnone : ¬ (s.hit = true ∨
              ∃ i, channel i cs ≠ [] ∧ p (feed cap (s.buf i) (channel i cs)) = true) := by
            rw [← ih, hhit]
            simp
          rw [not_or, not_exists] at hnone
          by_cases hc : c.2 = []
          · have hsame : ∀ i, channel i (cs ++ [c]) = channel i cs := by
              intro i
              rw [hsplit, hc, ite_self, List.append_nil]
            rw [if_pos (Or.inr hc), hhit]
            simp only [hsame]
            exact iff_of_false (by simp) (not_or.mpr ⟨hnone.1, not_exists.mpr hnone.2⟩)
          · rw [if_neg (not_or.mpr ⟨by simp, hc⟩), buf_run_of_not_hit s hhit, feed_feed]
            have hself : channel c.1 (cs ++ [c]) = channel c.1 cs ++ c.2 := by
              rw [hsplit, if_pos rfl]
            constructor
            · intro hp
              refine Or.inr ⟨c.1, fun hnil => hc ?_, by rw [hself]; exact hp⟩
              rw [hself, List.append_eq_nil_iff] at hnil
              exact hnil.2
            · rintro (hs | ⟨i, hne, hi⟩)
              · exact absurd hs hnone.1
              · by_cases hci : c.1 = i
                · subst hci
                  rw [hself] at hi
                  exact hi
                · rw [hsplit, if_neg hci, List.append_nil] at hne hi
                  exact absurd ⟨hne, hi⟩ (hnone.2 i)

/-- From the start: one of the whole streams, cut at the cap, passes the test. -/
theorem hit_iff_channel (hnil : p [] = false) (hext : ∀ b b', p b = true → p (b ++ b') = true)
    (cs : List (ι × List α)) :
    ((start : Scan ι α).run cap p cs).hit = true ↔
      ∃ i, p ((channel i cs).take cap) = true := by
  rw [hit_run hext]
  simp only [start, nil_feed, Bool.false_eq_true, false_or]
  refine exists_congr fun i => and_iff_right_of_imp fun hi hchannel => ?_
  rw [hchannel, List.take_nil, hnil] at hi
  exact absurd hi (by simp)

end Scan

end Common
