import Mathlib.Logic.Function.Basic
import SdnFirewall.Common.Runs

/-!
# Machines of independent cells

A machine whose state is a family of cells, one for each key, and whose every event reads and
writes the cell of its own key only. What a cell goes through is told by the events of its key, so
two runs that agree key by key leave the same cells behind and put out the same answers, however
the events of different keys are interleaved.
-/

namespace Common

/-- A machine of cells: the key of an event, what it makes of its cell, and its answer. -/
structure CellMachine (K V E O : Type*) where
  key : E → K
  next : V → E → V
  answer : V → E → O

namespace CellMachine

variable {K V E O : Type*} [DecidableEq K] (m : CellMachine K V E O)

/-- One event. -/
def step (s : K → V) (e : E) : K → V := Function.update s (m.key e) (m.next (s (m.key e)) e)

/-- The events of a run, each with its answer. -/
def answers (s : K → V) (es : List E) : List (E × O) :=
  outputs m.step (fun s e => [(e, m.answer (s (m.key e)) e)]) s es

/-- What one cell answers to events of its own. -/
def cellAnswers (v : V) (es : List E) : List (E × O) :=
  outputs m.next (fun v e => [(e, m.answer v e)]) v es

/-- The events of one key. -/
def project (k : K) (es : List E) : List E := es.filter fun e => m.key e = k

/-- The answers to the events of one key. -/
def projectAnswers (k : K) (eos : List (E × O)) : List (E × O) :=
  eos.filter fun eo => m.key eo.1 = k

/-- The two lists are interleavings of the same sequences, one for each key. -/
def Interleaved (es es' : List E) : Prop := ∀ k, m.project k es = m.project k es'

/-- A cell goes through the events of its key. -/
theorem run_apply (s : K → V) (es : List E) (k : K) :
    runFrom m.step s es k = runFrom m.next (s k) (m.project k es) := by
  induction es generalizing s with
  | nil => rfl
  | cons e es ih =>
      rw [runFrom_cons, ih, step, project, project]
      by_cases hk : m.key e = k
      · subst hk
        rw [Function.update_self, List.filter_cons_of_pos (by simp), runFrom_cons]
      · rw [Function.update_of_ne (Ne.symm hk), List.filter_cons_of_neg (by simpa using hk)]

/-- The answers to the events of a key are those of its cell. -/
theorem projectAnswers_answers (s : K → V) (es : List E) (k : K) :
    m.projectAnswers k (m.answers s es) = m.cellAnswers (s k) (m.project k es) := by
  induction es generalizing s with
  | nil => rfl
  | cons e es ih =>
      rw [answers, outputs_cons, ← answers, projectAnswers, List.filter_append, ← projectAnswers,
        ← projectAnswers, ih, step, project, project]
      by_cases hk : m.key e = k
      · subst hk
        rw [Function.update_self, List.filter_cons_of_pos (by simp), projectAnswers,
          List.filter_cons_of_pos (by simp), List.filter_nil]
        rfl
      · rw [Function.update_of_ne (Ne.symm hk), List.filter_cons_of_neg (by simpa using hk),
          projectAnswers, List.filter_cons_of_neg (by simpa using hk), List.filter_nil,
          List.nil_append]

/-- Lists that agree on every class of their elements are permutations of each other. -/
theorem perm_of_filter_eq {A : Type*} (f : A → K) {l l' : List A}
    (h : ∀ k, (l.filter fun a => f a = k) = l'.filter fun a => f a = k) : l.Perm l' := by
  classical
  rw [List.perm_iff_count]
  intro a
  have hcount : ∀ l : List A, (l.filter fun b => f b = f a).count a = l.count a :=
    fun l => List.count_filter (decide_eq_true rfl)
  rw [← hcount l, ← hcount l', h (f a)]

section Interleaved

variable {m} {es es' : List E} (h : m.Interleaved es es')

include h

/-- Interleavings of the same sequences leave the same cells behind. -/
theorem Interleaved.run_eq (s : K → V) : runFrom m.step s es = runFrom m.step s es' := by
  funext k
  rw [run_apply, run_apply, h k]

/-- They put out the same answers for each key. -/
theorem Interleaved.projectAnswers_eq (s : K → V) (k : K) :
    m.projectAnswers k (m.answers s es) = m.projectAnswers k (m.answers s es') := by
  rw [projectAnswers_answers, projectAnswers_answers, h k]

/-- And so the same answers altogether. -/
theorem Interleaved.answers_perm (s : K → V) : (m.answers s es).Perm (m.answers s es') :=
  perm_of_filter_eq (fun eo : E × O => m.key eo.1) fun k => h.projectAnswers_eq s k

end Interleaved

/-- Two events of different keys may come in either order. -/
theorem interleaved_swap {e e' : E} (h : m.key e ≠ m.key e') : m.Interleaved [e, e'] [e', e] := by
  intro k
  by_cases hk : m.key e = k
  · have hk' : m.key e' ≠ k := fun hk' => h (hk.trans hk'.symm)
    simp [project, hk, hk']
  · by_cases hk' : m.key e' = k <;> simp [project, hk, hk']

end CellMachine

end Common
