import Mathlib.Data.List.Basic
import Mathlib.Order.Basic

/-!
# Runs of a machine

A deterministic machine is a step function `step : S → E → S` fed with a list of events. An
invariant is proved once for a single step and then holds after every run; a property of the
steps themselves (`Along`) is carried the same way.
-/

namespace Common

variable {S E : Type*}

/-- The state after a list of events. -/
def runFrom (step : S → E → S) (s : S) (es : List E) : S := es.foldl step s

/-- Every event of the list meets `P` in the state it arrives in. -/
def Along (step : S → E → S) (P : S → E → Prop) : S → List E → Prop
  | _, [] => True
  | s, e :: es => P s e ∧ Along step P (step s e) es

instance decidableAlong (step : S → E → S) (P : S → E → Prop) [∀ s e, Decidable (P s e)] (s : S)
    (es : List E) : Decidable (Along step P s es) :=
  match es with
  | [] => isTrue trivial
  | e :: es =>
    haveI := decidableAlong step P (step s e) es
    inferInstanceAs (Decidable (P s e ∧ Along step P (step s e) es))

variable {step : S → E → S} {P Q : S → E → Prop}

@[simp] theorem runFrom_nil (s : S) : runFrom step s [] = s := rfl

@[simp] theorem runFrom_cons (s : S) (e : E) (es : List E) :
    runFrom step s (e :: es) = runFrom step (step s e) es := rfl

/-- A run of two parts is a run of the second from where the first leads. -/
theorem runFrom_append (s : S) (es es' : List E) :
    runFrom step s (es ++ es') = runFrom step (runFrom step s es) es' :=
  List.foldl_append

/-- The last event is a step from where the ones before it lead. -/
theorem runFrom_concat (s : S) (es : List E) (e : E) :
    runFrom step s (es ++ [e]) = step (runFrom step s es) e := by
  rw [runFrom_append]; rfl

/-- Events that do nothing may be left out, and the others judged by another step function. -/
theorem runFrom_filter {step' : S → E → S} {keep : E → Bool}
    (hidle : ∀ s e, keep e = false → step s e = s)
    (hkeep : ∀ s e, keep e = true → step s e = step' s e) (s : S) (es : List E) :
    runFrom step s es = runFrom step' s (es.filter keep) := by
  induction es generalizing s with
  | nil => rfl
  | cons e es ih =>
      rw [runFrom_cons, ih]
      cases he : keep e with
      | false => rw [List.filter_cons_of_neg (by simp [he]), hidle s e he]
      | true => rw [List.filter_cons_of_pos he, runFrom_cons, hkeep s e he]

@[simp] theorem along_nil (s : S) : Along step P s [] := trivial

@[simp] theorem along_cons {s : S} {e : E} {es : List E} :
    Along step P s (e :: es) ↔ P s e ∧ Along step P (step s e) es := Iff.rfl

/-- A property holds along two parts if it holds along the first and, from there, the second. -/
theorem along_append {s : S} {es es' : List E} :
    Along step P s (es ++ es') ↔
      Along step P s es ∧ Along step P (runFrom step s es) es' := by
  induction es generalizing s with
  | nil => simp
  | cons e es ih => simp [ih, and_assoc]

/-- What every event has on its own holds along every run. -/
theorem along_of_forall_mem (step : S → E → S) {P : E → Prop} {es : List E} (h : ∀ e ∈ es, P e)
    (s : S) : Along step (fun _ e => P e) s es := by
  induction es generalizing s with
  | nil => trivial
  | cons e es ih =>
      exact ⟨h e List.mem_cons_self, ih (fun e' he' => h e' (List.mem_cons_of_mem _ he')) _⟩

/-- An invariant that every conforming step preserves holds after every conforming run. -/
theorem Along.invariant (I : S → Prop) (hstep : ∀ s e, I s → P s e → I (step s e)) {s : S}
    {es : List E} (h : Along step P s es) (h0 : I s) : I (runFrom step s es) := by
  induction es generalizing s with
  | nil => exact h0
  | cons e es ih => exact ih h.2 (hstep s e h0 h.1)

/-- An invariant that every conforming step preserves holds before every step of the run. -/
theorem Along.strengthen (I : S → Prop) (hstep : ∀ s e, I s → P s e → I (step s e)) {s : S}
    {es : List E} (h : Along step P s es) (h0 : I s) :
    Along step (fun s e => I s ∧ P s e) s es := by
  induction es generalizing s with
  | nil => trivial
  | cons e es ih => exact ⟨⟨h0, h.1⟩, ih h.2 (hstep s e h0 h.1)⟩

/-- A weaker property holds along the same runs. -/
theorem Along.imp {s : S} {es : List E} (h : Along step P s es) (hPQ : ∀ s e, P s e → Q s e) :
    Along step Q s es := by
  induction es generalizing s with
  | nil => trivial
  | cons e es ih => exact ⟨hPQ s e h.1, ih h.2⟩

/-- An invariant that every step preserves holds after every run. -/
theorem runFrom_invariant (I : S → Prop) (hstep : ∀ s e, I s → I (step s e)) {s : S} (h0 : I s)
    (es : List E) : I (runFrom step s es) := by
  induction es generalizing s with
  | nil => exact h0
  | cons e es ih => exact ih (hstep s e h0)

/-- Two properties of the steps that agree whenever the invariant holds agree along a run. -/
theorem along_congr (I : S → Prop) (hstep : ∀ s e, I s → I (step s e))
    (hPQ : ∀ s e, I s → (P s e ↔ Q s e)) {s : S} (h0 : I s) (es : List E) :
    Along step P s es ↔ Along step Q s es := by
  induction es generalizing s with
  | nil => exact Iff.rfl
  | cons e es ih => exact and_congr (hPQ s e h0) (ih (hstep s e h0))

/-- Where `Good` follows from the invariant, and a step outside `P` always spoils `Good`, the runs
that are good at every moment are exactly the ones all of whose steps meet `P`. -/
theorem forall_take_iff_along (I Good : S → Prop) (hstep : ∀ s e, I s → P s e → I (step s e))
    (hgood : ∀ s, I s → Good s) (hspoil : ∀ s e, I s → ¬ P s e → ¬ Good (step s e))
    {s : S} (h0 : I s) (es : List E) :
    (∀ n, Good (runFrom step s (es.take n))) ↔ Along step P s es := by
  induction es generalizing s with
  | nil => simpa using hgood s h0
  | cons e es ih =>
      rw [along_cons]
      constructor
      · intro h
        have hP : P s e := by
          by_contra hP
          exact hspoil s e h0 hP (by simpa using h 1)
        exact ⟨hP, (ih (hstep s e h0 hP)).mp fun n => by simpa using h (n + 1)⟩
      · rintro ⟨hP, h⟩ n
        cases n with
        | zero => simpa using hgood s h0
        | succ n => simpa using (ih (hstep s e h0 hP)).mpr h n

/-- What the steps of a run put out, in order. -/
def outputs {O : Type*} (step : S → E → S) (f : S → E → List O) : S → List E → List O
  | _, [] => []
  | s, e :: es => f s e ++ outputs step f (step s e) es

@[simp] theorem outputs_cons {O : Type*} (f : S → E → List O) (s : S) (e : E) (es : List E) :
    outputs step f s (e :: es) = f s e ++ outputs step f (step s e) es := rfl

/-- The last event puts out in the state that the ones before it lead to. -/
theorem outputs_concat {O : Type*} (f : S → E → List O) (s : S) (es : List E) (e : E) :
    outputs step f s (es ++ [e]) = outputs step f s es ++ f (runFrom step s es) e := by
  induction es generalizing s with
  | nil => simp [outputs]
  | cons e' es ih => simp [outputs, ih]

/-- The outputs of two parts are those of the first and then, from there, of the second. -/
theorem outputs_append {O : Type*} (f : S → E → List O) (s : S) (es es' : List E) :
    outputs step f s (es ++ es') =
      outputs step f s es ++ outputs step f (runFrom step s es) es' := by
  induction es generalizing s with
  | nil => rfl
  | cons e es ih =>
      rw [List.cons_append, outputs_cons, outputs_cons, ih, runFrom_cons, List.append_assoc]

/-- What every conforming step puts out, from a state that meets an invariant, the whole run
does. -/
theorem forall_mem_outputs {O : Type*} {f : S → E → List O} {Q : O → Prop} (I : S → Prop)
    (hstep : ∀ s e, I s → P s e → I (step s e)) (hout : ∀ s e, I s → P s e → ∀ o ∈ f s e, Q o)
    {s : S} {es : List E} (h : Along step P s es) (h0 : I s) :
    ∀ o ∈ outputs step f s es, Q o := by
  induction es generalizing s with
  | nil => exact fun o ho => absurd ho List.not_mem_nil
  | cons e es ih =>
      intro o ho
      rcases List.mem_append.mp ho with ho | ho
      · exact hout s e h0 h.1 o ho
      · exact ih h.2 (hstep s e h0 h.1) o ho

/-- An output comes from one of the steps. -/
theorem mem_outputs {O : Type*} {f : S → E → List O} {s : S} {es : List E} {o : O}
    (h : o ∈ outputs step f s es) : ∃ s e, o ∈ f s e := by
  induction es generalizing s with
  | nil => exact absurd h List.not_mem_nil
  | cons e es ih =>
      rcases List.mem_append.mp h with h | h
      · exact ⟨s, e, h⟩
      · exact ih h

/-- The number of events that meet `P` since the state was last `absent`, `n` of them before the
run. -/
def tallySince (step : S → E → S) (absent : S → Prop) (P : S → E → Prop) [DecidablePred absent]
    [∀ s e, Decidable (P s e)] : S → ℕ → List E → ℕ
  | _, n, [] => n
  | s, n, e :: es =>
    let s' := step s e
    tallySince step absent P s' (if absent s' then 0 else if P s e then n + 1 else n) es

/-- An invariant of the state and its tally that every step preserves holds after every run. -/
theorem tallySince_invariant {absent : S → Prop} [DecidablePred absent]
    [∀ s e, Decidable (P s e)] (I : S → ℕ → Prop)
    (hstep : ∀ s n e, I s n →
      I (step s e) (if absent (step s e) then 0 else if P s e then n + 1 else n))
    {s : S} {n : ℕ} (h0 : I s n) (es : List E) :
    I (runFrom step s es) (tallySince step absent P s n es) := by
  induction es generalizing s n with
  | nil => exact h0
  | cons e es ih => exact ih (hstep s n e h0)

/-- Some event of the run meets `P` in the state it arrives in. -/
def Sometime (step : S → E → S) (P : S → E → Prop) (s : S) (es : List E) : Prop :=
  ∃ before e after, es = before ++ e :: after ∧ P (runFrom step s before) e

/-- A property that a run brings about is brought about by one of its steps. -/
theorem sometime_of_runFrom (I : S → Prop) {s : S} {es : List E} (h0 : ¬ I s)
    (h : I (runFrom step s es)) : Sometime step (fun s e => ¬ I s ∧ I (step s e)) s es := by
  induction es generalizing s with
  | nil => exact absurd h h0
  | cons e es ih =>
      by_cases he : I (step s e)
      · exact ⟨[], e, es, rfl, h0, he⟩
      · obtain ⟨before, e', after, rfl, hP⟩ := ih he h
        exact ⟨e :: before, e', after, rfl, hP⟩

/-- The number of events of a run that meet `P` in the state they arrive in. -/
def tally (step : S → E → S) (P : S → E → Prop) [∀ s e, Decidable (P s e)] : S → List E → ℕ
  | _, [] => 0
  | s, e :: es => (if P s e then 1 else 0) + tally step P (step s e) es

/-- A weaker property is met at least as often. -/
theorem tally_le_tally [∀ s e, Decidable (P s e)] [∀ s e, Decidable (Q s e)]
    (hPQ : ∀ s e, P s e → Q s e) (s : S) (es : List E) :
    tally step P s es ≤ tally step Q s es := by
  induction es generalizing s with
  | nil => exact Nat.le_refl 0
  | cons e es ih =>
      refine Nat.add_le_add ?_ (ih _)
      by_cases hP : P s e
      · simp only [if_pos hP, if_pos (hPQ s e hP), Nat.le_refl]
      · rw [if_neg hP]
        exact Nat.zero_le _

/-- No event of a run is counted exactly if none meets `P`. -/
theorem tally_eq_zero_iff [∀ s e, Decidable (P s e)] {s : S} {es : List E} :
    tally step P s es = 0 ↔ Along step (fun s e => ¬ P s e) s es := by
  induction es generalizing s with
  | nil => simp [tally]
  | cons e es ih =>
      rw [tally, along_cons, ← ih]
      by_cases hP : P s e <;> simp [hP]

/-- The tally of two parts is the sum of theirs. -/
theorem tally_append [∀ s e, Decidable (P s e)] (s : S) (es es' : List E) :
    tally step P s (es ++ es') = tally step P s es + tally step P (runFrom step s es) es' := by
  induction es generalizing s with
  | nil => simp [tally]
  | cons e es ih => simp only [List.cons_append, tally, ih, runFrom_cons, Nat.add_assoc]

/-- An event that meets `P` is told by the number of such events before it. -/
theorem eq_of_tally_eq [∀ s e, Decidable (P s e)] {s : S} {before before' after after' : List E}
    {e e' : E} (h : before ++ e :: after = before' ++ e' :: after')
    (hP : P (runFrom step s before) e) (hP' : P (runFrom step s before') e')
    (htally : tally step P s before = tally step P s before') : e = e' := by
  -- of two such events the later one has the earlier one before it
  have hlt : ∀ {before before' : List E} {e : E} {rest : List E},
      P (runFrom step s before) e → before' = before ++ e :: rest →
      tally step P s before < tally step P s before' := by
    rintro before _ e rest hP rfl
    rw [tally_append, tally, if_pos hP]
    omega
  rcases List.append_eq_append_iff.mp h with ⟨mid, hbefore, hrest⟩ | ⟨mid, hbefore, hrest⟩
  · cases mid with
    | nil => exact (List.cons.inj hrest).1
    | cons m mid =>
        obtain rfl : e = m := (List.cons.inj hrest).1
        exact absurd htally (Nat.ne_of_lt (hlt hP hbefore))
  · cases mid with
    | nil => exact (List.cons.inj hrest).1.symm
    | cons m mid =>
        obtain rfl : e' = m := (List.cons.inj hrest).1
        exact absurd htally.symm (Nat.ne_of_lt (hlt hP' hbefore))

/-- A run with more than `n` events that meet `P` has one that `n` such events precede. -/
theorem exists_of_lt_tally [∀ s e, Decidable (P s e)] {s : S} {es : List E} {n : ℕ}
    (h : n < tally step P s es) : ∃ before e after, es = before ++ e :: after ∧
      P (runFrom step s before) e ∧ tally step P s before = n := by
  induction es generalizing s n with
  | nil => exact absurd h (Nat.not_lt_zero _)
  | cons e es ih =>
      rw [tally] at h
      by_cases hP : P s e
      · cases n with
        | zero => exact ⟨[], e, es, rfl, hP, rfl⟩
        | succ n =>
            have hrest : n < tally step P (step s e) es := by
              rw [if_pos hP] at h
              omega
            obtain ⟨before, e', after, rfl, hP', hn⟩ := ih hrest
            refine ⟨e :: before, e', after, rfl, hP', ?_⟩
            rw [tally, if_pos hP, hn, Nat.add_comm]
      · rw [if_neg hP, Nat.zero_add] at h
        obtain ⟨before, e', after, rfl, hP', hn⟩ := ih h
        refine ⟨e :: before, e', after, rfl, hP', ?_⟩
        rw [tally, if_neg hP, hn, Nat.zero_add]

/-- `Along` read at a position: the event that follows a prefix meets `P` there. -/
theorem Along.at {s : S} {es es' : List E} {e : E} (h : Along step P s (es ++ e :: es')) :
    P (runFrom step s es) e :=
  (along_append.mp h).2.1

end Common
