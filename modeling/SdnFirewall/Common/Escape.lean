import Mathlib.Data.List.Basic
import Mathlib.Data.List.Nodup

/-!
# Escape codes

A text is escaped by writing some of its letters as words that start with a marker, the marker
among them. Behind its marker a word has no such letter, and no word begins another: the text can be
read back in one pass, and an escaped text has these letters only as the markers of words.
-/

namespace Common

section ReplaceAll

variable {α : Type*} [DecidableEq α]

/-- Replace a letter by a word throughout. -/
def replaceAll (c : α) (w s : List α) : List α := s.flatMap fun x => if x = c then w else [x]

/-- Replacing goes letter by letter. -/
theorem replaceAll_append (c : α) (w s t : List α) :
    replaceAll c w (s ++ t) = replaceAll c w s ++ replaceAll c w t :=
  List.flatMap_append

/-- Replacing a letter that does not occur changes nothing. -/
theorem replaceAll_of_notMem {c : α} {w s : List α} (h : c ∉ s) : replaceAll c w s = s := by
  induction s with
  | nil => rfl
  | cons x s ih =>
      rw [List.mem_cons, not_or] at h
      rw [replaceAll, List.flatMap_cons, if_neg (Ne.symm h.1), List.singleton_append]
      exact congrArg (x :: ·) (ih h.2)

/-- The letter itself becomes its word. -/
theorem replaceAll_singleton (c : α) (w : List α) : replaceAll c w [c] = w := by
  simp [replaceAll]

end ReplaceAll

/-- A code that writes some letters as words: `table` has each of these letters with what its word
has behind the marker. -/
structure EscapeCode (α : Type*) where
  marker : α
  table : List (α × List α)
  nodup : (table.map Prod.fst).Nodup
  marker_mem : marker ∈ table.map Prod.fst
  plain : ∀ p ∈ table, ∀ x ∈ p.2, x ∉ table.map Prod.fst
  prefixFree : ∀ p ∈ table, ∀ q ∈ table, p.2 <+: q.2 → p = q

namespace EscapeCode

variable {α : Type*} [DecidableEq α] (E : EscapeCode α)

/-- The letters that are written as words. -/
def letters : List α := E.table.map Prod.fst

/-- How a letter is written. -/
def word (x : α) : List α :=
  match E.table.find? fun p => p.1 = x with
  | some p => E.marker :: p.2
  | none => [x]

def encode (s : List α) : List α := s.flatMap E.word

/-- Read a text in one pass, with `n` letters still to pass over: a marker with the rest of a word
behind it stands for the letter of that word. -/
def decodeFrom : ℕ → List α → List α
  | _, [] => []
  | n + 1, _ :: s => decodeFrom n s
  | 0, x :: s =>
    if x = E.marker then
      match E.table.find? fun p => p.2.isPrefixOf s with
      | some p => p.1 :: decodeFrom p.2.length s
      | none => x :: decodeFrom 0 s
    else x :: decodeFrom 0 s

def decode (s : List α) : List α := E.decodeFrom 0 s

/-! ## Words -/

variable {E}

omit [DecidableEq α] in
/-- Every letter of the table is one of the letters. -/
theorem mem_letters {p : α × List α} (h : p ∈ E.table) : p.1 ∈ E.letters :=
  List.mem_map_of_mem h

/-- A letter is written as its word, or else it is left as it is. -/
theorem word_cases (E : EscapeCode α) (x : α) :
    (∃ p ∈ E.table, p.1 = x ∧ E.word x = E.marker :: p.2) ∨ x ∉ E.letters ∧ E.word x = [x] := by
  unfold word
  cases hfind : E.table.find? fun p => p.1 = x with
  | some p =>
      have hp : p.1 = x := by simpa using List.find?_some hfind
      exact Or.inl ⟨p, List.mem_of_find?_eq_some hfind, hp, rfl⟩
  | none =>
      refine Or.inr ⟨fun hx => ?_, rfl⟩
      obtain ⟨p, hp, rfl⟩ := List.mem_map.mp hx
      simpa using List.find?_eq_none.mp hfind p hp

/-- The encoding goes letter by letter. -/
theorem encode_cons (x : α) (s : List α) : E.encode (x :: s) = E.word x ++ E.encode s :=
  List.flatMap_cons

/-- Of the escaped letters an escaped text has the marker only. -/
theorem notMem_encode {x : α} (hx : x ∈ E.letters) (hne : x ≠ E.marker) (s : List α) :
    x ∉ E.encode s := by
  intro hmem
  obtain ⟨y, -, hy⟩ := List.mem_flatMap.mp hmem
  rcases E.word_cases y with ⟨p, hp, -, hword⟩ | ⟨hnot, hword⟩
  · rw [hword] at hy
    rcases List.mem_cons.mp hy with h | h
    · exact hne h
    · exact E.plain p hp x h hx
  · rw [hword, List.mem_singleton] at hy
    exact hnot (hy ▸ hx)

/-- A marker in an escaped text starts a word. -/
theorem prefix_of_encode_eq {s pre post : List α} (h : E.encode s = pre ++ E.marker :: post) :
    ∃ p ∈ E.table, p.2 <+: post := by
  induction s generalizing pre with
  | nil => exact absurd h (by simp [encode])
  | cons y s ih =>
      rw [encode_cons] at h
      rcases List.append_eq_append_iff.mp h with ⟨mid, -, hrest⟩ | ⟨mid, hword, hrest⟩
      · exact ih hrest
      cases mid with
      | nil =>
          have hs : E.encode s = [] ++ E.marker :: post := hrest.symm
          exact ih hs
      | cons m mid =>
          -- the marker lies in the word of the first letter
          obtain ⟨rfl, rfl⟩ := List.cons.inj hrest
          rcases E.word_cases y with ⟨p, hp, -, hy⟩ | ⟨hnot, hy⟩
          · rw [hy] at hword
            cases pre with
            | nil =>
                obtain ⟨-, hp2⟩ := List.cons.inj hword
                exact ⟨p, hp, hp2 ▸ List.prefix_append _ _⟩
            | cons z pre =>
                obtain ⟨-, hp2⟩ := List.cons.inj hword
                refine absurd E.marker_mem (E.plain p hp _ ?_)
                rw [hp2]
                simp
          · rw [hy] at hword
            have hmem : E.marker ∈ [y] := by
              rw [hword]
              simp
            rw [List.mem_singleton] at hmem
            exact absurd (hmem ▸ E.marker_mem) hnot

/-! ## Reading back -/

/-- Skipping a word leads to the text behind it. -/
theorem decodeFrom_append (w s : List α) : E.decodeFrom w.length (w ++ s) = E.decode s := by
  induction w with
  | nil => rfl
  | cons x w ih =>
      rw [List.length_cons, List.cons_append, decodeFrom]
      exact ih

/-- A word is found behind its marker, whatever follows it. -/
theorem find?_append {p : α × List α} (hp : p ∈ E.table) (s : List α) :
    (E.table.find? fun q => q.2.isPrefixOf (p.2 ++ s)) = some p := by
  have hfound : p.2.isPrefixOf (p.2 ++ s) = true :=
    List.isPrefixOf_iff_prefix.mpr (List.prefix_append _ _)
  cases hfind : E.table.find? fun q => q.2.isPrefixOf (p.2 ++ s) with
  | none => exact absurd hfound (List.find?_eq_none.mp hfind p hp)
  | some q =>
      have hq := List.mem_of_find?_eq_some hfind
      have hpass : q.2.isPrefixOf (p.2 ++ s) = true := by simpa using List.find?_some hfind
      have hprefix : q.2 <+: p.2 ++ s := List.isPrefixOf_iff_prefix.mp hpass
      rcases List.prefix_or_prefix_of_prefix hprefix (List.prefix_append p.2 s) with h | h
      · rw [E.prefixFree q hq p hp h]
      · rw [E.prefixFree p hp q hq h]

/-- A word at the front is decoded to its letter, whatever follows. -/
theorem decode_word_append (x : α) (s : List α) : E.decode (E.word x ++ s) = x :: E.decode s := by
  rcases E.word_cases x with ⟨p, hp, rfl, hword⟩ | ⟨hnot, hword⟩
  · rw [hword, decode, List.cons_append, decodeFrom, if_pos rfl, find?_append hp]
    dsimp only
    rw [decodeFrom_append]
  · have hne : x ≠ E.marker := fun h => hnot (h ▸ E.marker_mem)
    rw [hword, decode, List.singleton_append, decodeFrom, if_neg hne, decode]

/-- What was escaped is read back. -/
theorem decode_encode (E : EscapeCode α) (s : List α) : E.decode (E.encode s) = s := by
  induction s with
  | nil => rfl
  | cons x s ih => rw [encode_cons, decode_word_append, ih]

/-! ## Letter by letter -/

/-- Replace the letters of a table by their words, one after the other. -/
def replaceEach (marker : α) (table : List (α × List α)) (s : List α) : List α :=
  table.foldl (fun s p => replaceAll p.1 (marker :: p.2) s) s

/-- Replacing one letter after the other goes letter by letter too. -/
theorem replaceEach_append (marker : α) (table : List (α × List α)) (s t : List α) :
    replaceEach marker table (s ++ t) =
      replaceEach marker table s ++ replaceEach marker table t := by
  induction table generalizing s t with
  | nil => rfl
  | cons p table ih =>
      rw [replaceEach, List.foldl_cons, replaceAll_append]
      exact ih _ _

/-- A text without any of the letters stays as it is. -/
theorem replaceEach_of_disjoint {marker : α} {table : List (α × List α)} {s : List α}
    (h : ∀ p ∈ table, p.1 ∉ s) : replaceEach marker table s = s := by
  induction table with
  | nil => rfl
  | cons p table ih =>
      rw [replaceEach, List.foldl_cons, replaceAll_of_notMem (h p List.mem_cons_self)]
      exact ih fun q hq => h q (List.mem_cons_of_mem _ hq)

/-- Where the marker is replaced first, no later replacement touches a word. -/
theorem replaceEach_singleton (hfirst : E.letters.head? = some E.marker) (x : α) :
    replaceEach E.marker E.table [x] = E.word x := by
  rcases E.word_cases x with ⟨p, hp, rfl, hword⟩ | ⟨hnot, hword⟩
  · obtain ⟨before, after, htable⟩ := List.append_of_mem hp
    have hnodup := E.nodup
    rw [htable, List.map_append, List.map_cons] at hnodup
    -- the replacements before the letter's own do not touch it
    have hbefore : ∀ q ∈ before, q.1 ∉ [p.1] := by
      intro q hq hmem
      rw [List.mem_singleton] at hmem
      exact (List.nodup_append.mp hnodup).2.2 q.1 (List.mem_map_of_mem hq) p.1
        List.mem_cons_self hmem
    have hmarker : E.marker ∉ after.map Prod.fst := by
      rw [letters, htable] at hfirst
      cases before with
      | nil =>
          rw [← Option.some.inj hfirst]
          exact (List.nodup_cons.mp hnodup).1
      | cons b before =>
          rw [← Option.some.inj hfirst]
          intro hmem
          exact (List.nodup_cons.mp hnodup).1
            (List.mem_append_right _ (List.mem_cons_of_mem _ hmem))
    -- those behind it do not touch its word, as the marker was replaced first
    have hafter : ∀ q ∈ after, q.1 ∉ E.marker :: p.2 := by
      intro q hq hmem
      rcases List.mem_cons.mp hmem with h | h
      · exact hmarker (h ▸ List.mem_map_of_mem hq)
      · refine E.plain p hp _ h (mem_letters ?_)
        rw [htable]
        exact List.mem_append_right _ (List.mem_cons_of_mem _ hq)
    rw [htable, replaceEach, List.foldl_append, List.foldl_cons]
    calc replaceEach E.marker after
          (replaceAll p.1 (E.marker :: p.2) (replaceEach E.marker before [p.1]))
        = replaceEach E.marker after (replaceAll p.1 (E.marker :: p.2) [p.1]) := by
          rw [replaceEach_of_disjoint hbefore]
      _ = replaceEach E.marker after (E.marker :: p.2) := by rw [replaceAll_singleton]
      _ = E.marker :: p.2 := replaceEach_of_disjoint hafter
      _ = E.word p.1 := hword.symm
  · rw [hword]
    refine replaceEach_of_disjoint fun p hp hmem => hnot ?_
    rw [← List.mem_singleton.mp hmem]
    exact mem_letters hp

/-- A text is escaped by replacing its letters one after the other, if the marker comes first. -/
theorem replaceEach_eq_encode (hfirst : E.letters.head? = some E.marker) (s : List α) :
    replaceEach E.marker E.table s = E.encode s := by
  induction s with
  | nil => exact replaceEach_of_disjoint fun p _ => List.not_mem_nil
  | cons x s ih =>
      rw [encode_cons, ← ih, ← replaceEach_singleton hfirst x, ← replaceEach_append,
        List.singleton_append]

end EscapeCode

end Common
