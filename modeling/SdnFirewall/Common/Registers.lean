import Mathlib.Data.List.DropRight
import SdnFirewall.Common.Runs

/-!
# Registers of a machine

A part of the state that events write or leave alone can be read off the history of a run: where
every write counts, it holds the last one; where only a first write counts until the next reset, it
holds the first one since.
-/

namespace Common

variable {S E V : Type*} {step : S → E → S}

/-- What the events of a run write, in order. -/
def writes (step : S → E → S) (write : S → E → Option V) : S → List E → List V :=
  outputs step fun s e => (write s e).toList

variable {write : S → E → Option V}

@[simp] theorem writes_nil (s : S) : writes step write s [] = [] := rfl

@[simp] theorem writes_cons (s : S) (e : E) (es : List E) :
    writes step write s (e :: es) = (write s e).toList ++ writes step write (step s e) es := rfl

/-- The last event writes in the state that the ones before it lead to. -/
theorem writes_concat (s : S) (es : List E) (e : E) :
    writes step write s (es ++ [e]) =
      writes step write s es ++ (write (runFrom step s es) e).toList :=
  outputs_concat ..

/-- Writes that do not depend on the state are found in the list of events. -/
theorem writes_eq_filterMap {f : E → Option V} {s : S} {es : List E}
    (h : Along step (fun s e => write s e = f e) s es) :
    writes step write s es = es.filterMap f := by
  induction es generalizing s with
  | nil => rfl
  | cons e es ih =>
      rw [writes_cons, h.1, ih h.2]
      cases hf : f e <;> simp [hf]

@[simp] theorem writes_const (f : E → Option V) (s : S) (es : List E) :
    writes step (fun _ e => f e) s es = es.filterMap f :=
  writes_eq_filterMap (along_of_forall_mem step (fun _ _ => rfl) s)

section Invariant

variable (I : S → Prop) (hstep : ∀ s e, I s → I (step s e))

include hstep

/-- A register holds what was last written to it. -/
theorem read_eq_last (read : S → V) (write : S → E → Option V)
    (h : ∀ s e, I s → read (step s e) = (write s e).getD (read s)) {s : S} (h0 : I s)
    (es : List E) :
    read (runFrom step s es) = (writes step write s es).getLast?.getD (read s) := by
  induction es generalizing s with
  | nil => rfl
  | cons e es ih =>
      rw [runFrom_cons, ih (hstep s e h0), h s e h0, writes_cons, List.getLast?_append]
      cases (writes step write (step s e) es).getLast? with
      | some v => rfl
      | none => cases write s e <;> rfl

/-- A register that is empty until it is first written holds what was last written to it. -/
theorem read?_eq_last (read : S → Option V) (write : S → E → Option V)
    (h : ∀ s e, I s → read (step s e) = (write s e).or (read s)) {s : S} (h0 : I s)
    (es : List E) :
    read (runFrom step s es) = (writes step write s es).getLast?.or (read s) := by
  induction es generalizing s with
  | nil => rfl
  | cons e es ih =>
      rw [runFrom_cons, ih (hstep s e h0), h s e h0, writes_cons, List.getLast?_append,
        Option.or_assoc]
      cases write s e <;> rfl

/-- A register that only the first write since a reset counts for holds that one. -/
theorem read_eq_first (read : S → Option V) (write : S → E → Option V) (reset : E → Bool)
    (h : ∀ s e, I s → read (step s e) = if reset e then none else (read s).or (write s e))
    {s : S} (h0 : I s) (hread : read s = none) (es : List E) :
    read (runFrom step s es) = (writes step write
      (runFrom step s (es.rdropWhile fun e => !reset e))
      (es.rtakeWhile fun e => !reset e)).head? := by
  induction es using List.reverseRec with
  | nil => exact hread
  | append_singleton es e ih =>
      have hI : I (runFrom step s es) := runFrom_invariant I hstep h0 es
      rw [runFrom_concat, h _ _ hI]
      by_cases hreset : reset e = true
      · rw [if_pos hreset, List.rdropWhile_concat_neg _ _ _ (by simp [hreset]),
          List.rtakeWhile_concat_neg _ _ _ (by simp [hreset])]
        rfl
      · have hsplit : runFrom step (runFrom step s (es.rdropWhile fun e => !reset e))
            (es.rtakeWhile fun e => !reset e) = runFrom step s es := by
          rw [← runFrom_append, List.rdropWhile_append_rtakeWhile]
        rw [if_neg hreset, List.rdropWhile_concat_pos _ _ _ (by simp [hreset]),
          List.rtakeWhile_concat_pos _ _ _ (by simp [hreset]), writes_concat, hsplit,
          List.head?_append, ih]
        cases write (runFrom step s es) e <;> simp

end Invariant

end Common
