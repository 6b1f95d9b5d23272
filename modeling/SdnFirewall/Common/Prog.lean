import Mathlib.Data.List.Basic

/-!
# Effectful calls

A call that reads and writes a shared state, may raise, and performs outward actions one at a
time. The call is kept as a tree: whoever runs it decides what happens at an outward action, which
is told to the continuation as a return or as an exception. `Prog.run` is the plain reading, where
no outward action fails and nothing else touches the state while the call is running.
-/

namespace Common

/-- A call over state `σ`, with outward actions `ω`, exceptions `ε` and result `α`. -/
inductive Prog (σ ω ε : Type) (α : Type) where
  | ret (a : α)
  | raise (e : ε)
  | get (k : σ → Prog σ ω ε α)
  | set (s : σ) (k : Prog σ ω ε α)
  | emit (o : ω) (k : Except ε Unit → Prog σ ω ε α)

/-- What a finished call leaves behind. -/
@[ext]
structure Outcome (σ ω ε α : Type) where
  val : Except ε α
  state : σ
  out : List ω

namespace Prog

variable {σ ω ε α β : Type}

/-- Sequencing: continue with the result, stop at an exception. -/
def bind : Prog σ ω ε α → (α → Prog σ ω ε β) → Prog σ ω ε β
  | ret a, f => f a
  | raise e, _ => raise e
  | get k, f => get fun s => bind (k s) f
  | set s k, f => set s (bind k f)
  | emit o k, f => emit o fun r => bind (k r) f

instance : Monad (Prog σ ω ε) where
  pure := ret
  bind := bind

/-- `try p except e: h e`. -/
def tryCatch : Prog σ ω ε α → (ε → Prog σ ω ε α) → Prog σ ω ε α
  | ret a, _ => ret a
  | raise e, h => h e
  | get k, h => get fun s => tryCatch (k s) h
  | set s k, h => set s (tryCatch k h)
  | emit o k, h => emit o fun r => tryCatch (k r) h

/-- Read the state. -/
def read : Prog σ ω ε σ := get ret

/-- Change the state. -/
def modify (f : σ → σ) : Prog σ ω ε Unit := get fun s => set (f s) (ret ())

/-- Perform an outward action; an exception it ends with is raised here. -/
def call (o : ω) : Prog σ ω ε Unit :=
  emit o fun
    | .ok () => ret ()
    | .error e => raise e

/-- The value of a computation that may have raised. -/
def ofExcept : Except ε α → Prog σ ω ε α
  | .ok a => ret a
  | .error e => raise e

/-- The present value, or the exception `e`. -/
def orRaise (e : ε) : Option α → Prog σ ω ε α
  | some a => ret a
  | none => raise e

/-- Run a call to its end, undisturbed, every outward action returning. -/
def run : Prog σ ω ε α → σ → Outcome σ ω ε α
  | ret a, s => ⟨.ok a, s, []⟩
  | raise e, s => ⟨.error e, s, []⟩
  | get k, s => run (k s) s
  | set s k, _ => run k s
  | emit o k, s =>
    let r := run (k (.ok ())) s
    ⟨r.val, r.state, o :: r.out⟩

end Prog

namespace Outcome

variable {σ ω ε α β : Type}

/-- Continue a finished call: from its result, or not at all after an exception. -/
def andThen (r : Outcome σ ω ε α) (f : α → σ → Outcome σ ω ε β) : Outcome σ ω ε β :=
  match r.val with
  | .ok a => ⟨(f a r.state).val, (f a r.state).state, r.out ++ (f a r.state).out⟩
  | .error e => ⟨.error e, r.state, r.out⟩

/-- Handle the exception of a finished call, if it ended with one. -/
def orElse (r : Outcome σ ω ε α) (h : ε → σ → Outcome σ ω ε α) : Outcome σ ω ε α :=
  match r.val with
  | .ok a => ⟨.ok a, r.state, r.out⟩
  | .error e => ⟨(h e r.state).val, (h e r.state).state, r.out ++ (h e r.state).out⟩

@[simp] theorem andThen_ok (a : α) (s : σ) (os : List ω) (f : α → σ → Outcome σ ω ε β) :
    andThen ⟨.ok a, s, os⟩ f = ⟨(f a s).val, (f a s).state, os ++ (f a s).out⟩ := rfl

@[simp] theorem andThen_error (e : ε) (s : σ) (os : List ω) (f : α → σ → Outcome σ ω ε β) :
    andThen ⟨.error e, s, os⟩ f = ⟨.error e, s, os⟩ := rfl

@[simp] theorem orElse_ok (a : α) (s : σ) (os : List ω) (h : ε → σ → Outcome σ ω ε α) :
    orElse ⟨.ok a, s, os⟩ h = ⟨.ok a, s, os⟩ := rfl

@[simp] theorem orElse_error (e : ε) (s : σ) (os : List ω) (h : ε → σ → Outcome σ ω ε α) :
    orElse ⟨.error e, s, os⟩ h = ⟨(h e s).val, (h e s).state, os ++ (h e s).out⟩ := rfl

end Outcome

namespace Prog

variable {σ ω ε α β : Type}

/-! ## Running, constructor by constructor -/

@[simp] theorem run_pure (a : α) (s : σ) :
    (pure a : Prog σ ω ε α).run s = ⟨.ok a, s, []⟩ := rfl

@[simp] theorem run_raise (e : ε) (s : σ) :
    (raise e : Prog σ ω ε α).run s = ⟨.error e, s, []⟩ := rfl

@[simp] theorem run_read (s : σ) : (read : Prog σ ω ε σ).run s = ⟨.ok s, s, []⟩ := rfl

@[simp] theorem run_modify (f : σ → σ) (s : σ) :
    (modify f : Prog σ ω ε Unit).run s = ⟨.ok (), f s, []⟩ := rfl

@[simp] theorem run_call (o : ω) (s : σ) :
    (call o : Prog σ ω ε Unit).run s = ⟨.ok (), s, [o]⟩ := rfl

@[simp] theorem run_orRaise_some (e : ε) (a : α) (s : σ) :
    (orRaise e (some a) : Prog σ ω ε α).run s = ⟨.ok a, s, []⟩ := rfl

@[simp] theorem run_orRaise_none (e : ε) (s : σ) :
    (orRaise e none : Prog σ ω ε α).run s = ⟨.error e, s, []⟩ := rfl

@[simp] theorem run_ofExcept_ok (a : α) (s : σ) :
    (ofExcept (.ok a) : Prog σ ω ε α).run s = ⟨.ok a, s, []⟩ := rfl

@[simp] theorem run_ofExcept_error (e : ε) (s : σ) :
    (ofExcept (.error e) : Prog σ ω ε α).run s = ⟨.error e, s, []⟩ := rfl

/-- Running a sequence is running its parts one after the other. -/
@[simp] theorem run_bind (p : Prog σ ω ε α) (f : α → Prog σ ω ε β) (s : σ) :
    (p >>= f).run s = (p.run s).andThen fun a s' => (f a).run s' := by
  show (p.bind f).run s = _
  induction p generalizing s with
  | ret a => simp [bind, run]
  | raise e => rfl
  | get k ih => exact ih s s
  | set s' k ih => exact ih s'
  | emit o k ih =>
      simp only [bind, run, ih]
      cases h : ((k (.ok ())).run s).val <;> simp [Outcome.andThen, h]

/-- Running a guarded call is running it, then its handler if it raised. -/
@[simp] theorem run_tryCatch (p : Prog σ ω ε α) (h : ε → Prog σ ω ε α) (s : σ) :
    (p.tryCatch h).run s = (p.run s).orElse fun e s' => (h e).run s' := by
  induction p generalizing s with
  | ret a => rfl
  | raise e => simp [tryCatch, run]
  | get k ih => exact ih s s
  | set s' k ih => exact ih s'
  | emit o k ih =>
      simp only [tryCatch, run, ih]
      cases hv : ((k (.ok ())).run s).val <;> simp [Outcome.orElse, hv]

/-! ## Calls that return -/

/-- `p`, run from `s` to its end, does not raise. -/
def Returns (p : Prog σ ω ε α) (s : σ) : Prop := ∃ a, (p.run s).val = .ok a

/-- Returning returns. -/
theorem returns_pure (a : α) (s : σ) : (pure a : Prog σ ω ε α).Returns s := ⟨a, rfl⟩

/-- A sequence returns exactly if its first part does, and its second part from there. -/
theorem returns_bind_iff {p : Prog σ ω ε α} {g : α → Prog σ ω ε β} {s : σ} :
    (p >>= g).Returns s ↔ ∃ a, (p.run s).val = .ok a ∧ (g a).Returns (p.run s).state := by
  rw [Returns, run_bind, Outcome.andThen]
  cases (p.run s).val with
  | ok a => simp [Returns]
  | error e => simp

/-- `p`, run from `s`, returns `a` and leaves `s'`. -/
def Yields (p : Prog σ ω ε α) (s : σ) (a : α) (s' : σ) : Prop :=
  (p.run s).val = .ok a ∧ (p.run s).state = s'

section Yields

variable {p : Prog σ ω ε α} {g : α → Prog σ ω ε β} {s s' : σ} {a : α} {b : β}

/-- A program that yields a value returns it. -/
theorem Yields.val (h : p.Yields s a s') : (p.run s).val = .ok a := h.1

/-- A program that yields a state ends in it. -/
theorem Yields.state (h : p.Yields s a s') : (p.run s).state = s' := h.2

/-- A sequence yields what its second part does from where its first part ends. -/
theorem yields_bind_iff : (p >>= g).Yields s b s' ↔
    ∃ a, (p.run s).val = .ok a ∧ (g a).Yields (p.run s).state b s' := by
  rw [Yields, run_bind, Outcome.andThen]
  cases (p.run s).val with
  | ok a => simp [Yields]
  | error e => simp

/-- Returning yields what is returned and the state as it was. -/
theorem yields_pure_iff {a' : α} :
    (pure a : Prog σ ω ε α).Yields s a' s' ↔ a = a' ∧ s = s' := by
  simp [Yields]

/-- A program that raises yields nothing. -/
theorem not_yields_raise (e : ε) : ¬ (raise e : Prog σ ω ε α).Yields s a s' := by
  simp [Yields]

/-- A call that goes on behind a check yields what it does without the check, which it passes. -/
theorem yields_check_bind_iff {c : Prop} [Decidable c] {e : ε} {f : PUnit → Prog σ ω ε β} :
    (if c then (raise e : Prog σ ω ε PUnit) >>= f else f ⟨⟩).Yields s b s' ↔
      ¬ c ∧ (f ⟨⟩).Yields s b s' := by
  by_cases h : c
  · rw [if_pos h]
    exact iff_of_false (not_yields_raise e) fun hc => hc.1 h
  · rw [if_neg h, and_iff_right h]

/-- Behind a pure computation a program yields only if the computation succeeds. -/
theorem yields_ofExcept_bind_iff {x : Except ε α} :
    (ofExcept x >>= g).Yields s b s' ↔ ∃ a, x = .ok a ∧ (g a).Yields s b s' := by
  rw [yields_bind_iff]
  cases x <;> simp

/-- A handler that raises again hides no failure. -/
theorem yields_reraise_bind_iff {x : Except ε α} {handler : ε → Prog σ ω ε α}
    (hh : ∀ e, ∃ e', handler e = raise e') :
    ((ofExcept x).tryCatch handler >>= g).Yields s b s' ↔
      ∃ a, x = .ok a ∧ (g a).Yields s b s' := by
  rw [yields_bind_iff]
  cases x with
  | ok a => simp
  | error e =>
      obtain ⟨e', he'⟩ := hh e
      simp [he']

/-- Reading the state costs nothing. -/
theorem yields_read_bind_iff {f : σ → Prog σ ω ε β} :
    (read >>= f).Yields s b s' ↔ (f s).Yields s b s' := by
  simp [yields_bind_iff]

/-- Behind a change of the state a program starts in the changed one. -/
theorem yields_modify_bind_iff {u : σ → σ} {f : Unit → Prog σ ω ε β} :
    (modify u >>= f).Yields s b s' ↔ (f ()).Yields (u s) b s' := by
  rw [yields_bind_iff, run_modify]
  exact ⟨fun ⟨_, _, h⟩ => h, fun h => ⟨(), rfl, h⟩⟩

end Yields

/-! ## Failing actions

The same run when outward actions can fail. `ans n o` says how the `n`-th action ends if it is `o`.
-/

/-- Run a call to its end, the outward actions counted from `n` on. -/
def runWith (ans : ℕ → ω → Except ε Unit) : Prog σ ω ε α → ℕ → σ → Outcome σ ω ε α
  | ret a, _, s => ⟨.ok a, s, []⟩
  | raise e, _, s => ⟨.error e, s, []⟩
  | get k, n, s => runWith ans (k s) n s
  | set s k, n, _ => runWith ans k n s
  | emit o k, n, s =>
    let r := runWith ans (k (ans n o)) (n + 1) s
    ⟨r.val, r.state, o :: r.out⟩

section RunWith

variable {ans : ℕ → ω → Except ε Unit}

@[simp] theorem runWith_pure (a : α) (n : ℕ) (s : σ) :
    (pure a : Prog σ ω ε α).runWith ans n s = ⟨.ok a, s, []⟩ := rfl

@[simp] theorem runWith_read (n : ℕ) (s : σ) :
    (read : Prog σ ω ε σ).runWith ans n s = ⟨.ok s, s, []⟩ := rfl

@[simp] theorem runWith_modify (f : σ → σ) (n : ℕ) (s : σ) :
    (modify f : Prog σ ω ε Unit).runWith ans n s = ⟨.ok (), f s, []⟩ := rfl

@[simp] theorem runWith_ofExcept_ok (a : α) (n : ℕ) (s : σ) :
    (ofExcept (.ok a) : Prog σ ω ε α).runWith ans n s = ⟨.ok a, s, []⟩ := rfl

/-! What stands in front of the first action of a call is run off before it. -/

/-- A computation that has gone through is out of the way, and no answer is used up. -/
theorem runWith_ofExcept_ok_bind (a : α) (f : α → Prog σ ω ε β) (n : ℕ) (s : σ) :
    (ofExcept (.ok a) >>= f).runWith ans n s = (f a).runWith ans n s := rfl

/-- Behind a read, the program goes on with the state it has read. -/
theorem runWith_read_bind (f : σ → Prog σ ω ε β) (n : ℕ) (s : σ) :
    (read >>= f).runWith ans n s = (f s).runWith ans n s := rfl

/-- Behind a change of the state, the program goes on in the changed one. -/
theorem runWith_modify_bind (u : σ → σ) (f : Unit → Prog σ ω ε β) (n : ℕ) (s : σ) :
    (modify u >>= f).runWith ans n s = (f ()).runWith ans n (u s) := rfl

/-- A call ends as the answers say, and the state stays. -/
theorem runWith_call (o : ω) (n : ℕ) (s : σ) :
    (call o : Prog σ ω ε Unit).runWith ans n s = ⟨ans n o, s, [o]⟩ := by
  simp only [call, runWith]
  cases ans n o <;> rfl

/-- A sequence runs its parts one after the other, and goes on counting. -/
@[simp] theorem runWith_bind (p : Prog σ ω ε α) (f : α → Prog σ ω ε β) (n : ℕ) (s : σ) :
    (p >>= f).runWith ans n s = (p.runWith ans n s).andThen fun a s' =>
      (f a).runWith ans (n + (p.runWith ans n s).out.length) s' := by
  show (p.bind f).runWith ans n s = _
  induction p generalizing n s with
  | ret a => simp [bind, runWith]
  | raise e => rfl
  | get k ih => exact ih s n s
  | set s' k ih => exact ih n s'
  | emit o k ih =>
      simp only [bind, runWith, ih, List.length_cons, Nat.add_assoc, Nat.add_comm 1]
      cases h : ((k (ans n o)).runWith ans (n + 1) s).val <;> simp [Outcome.andThen, h]

/-- A guarded call runs, then its handler if it raised. -/
@[simp] theorem runWith_tryCatch (p : Prog σ ω ε α) (h : ε → Prog σ ω ε α) (n : ℕ) (s : σ) :
    (p.tryCatch h).runWith ans n s = (p.runWith ans n s).orElse fun e s' =>
      (h e).runWith ans (n + (p.runWith ans n s).out.length) s' := by
  induction p generalizing n s with
  | ret a => rfl
  | raise e => simp [tryCatch, runWith]
  | get k ih => exact ih s n s
  | set s' k ih => exact ih n s'
  | emit o k ih =>
      simp only [tryCatch, runWith, ih, List.length_cons, Nat.add_assoc, Nat.add_comm 1]
      cases hv : ((k (ans n o)).runWith ans (n + 1) s).val <;> simp [Outcome.orElse, hv]

/-- A call whose actions cannot fail runs undisturbed. -/
theorem runWith_eq_run {p : Prog σ ω ε α} {s : σ}
    (h : ∀ o ∈ (p.run s).out, ∀ n, ans n o = .ok ()) (n : ℕ) :
    p.runWith ans n s = p.run s := by
  induction p generalizing n s with
  | ret a => rfl
  | raise e => rfl
  | get k ih => exact ih s h n
  | set s' k ih => exact ih h n
  | emit o k ih =>
      have hrest := ih (.ok ()) (s := s) (fun o' ho' => h o' (List.mem_cons_of_mem _ ho')) (n + 1)
      simp only [runWith, run, h o List.mem_cons_self n, hrest]

end RunWith

/-! ## Frame rules

`Confined f P p` says that `p`, however it ends, leaves the view `f` of the state as it is and does
nothing outwards but what satisfies `P`. It goes through sequencing, so a whole call is checked
part by part.
-/

/-- `p` does not change the view `f` of the state, and all its outward actions satisfy `P`. -/
structure Confined {γ : Type*} (f : σ → γ) (P : ω → Prop) (p : Prog σ ω ε α) : Prop where
  keeps : ∀ s, f (p.run s).state = f s
  emits : ∀ s, ∀ o ∈ (p.run s).out, P o

section Frame

variable {γ : Type*} {f : σ → γ} {P : ω → Prop} {p : Prog σ ω ε α} {g : α → Prog σ ω ε β}

/-- Returning leaves every view alone. -/
theorem confined_pure (a : α) : (pure a : Prog σ ω ε α).Confined f P :=
  ⟨fun _ => rfl, fun s o ho => by simp at ho⟩

/-- So does unwrapping an option. -/
theorem confined_orRaise (e : ε) (o : Option α) : (orRaise e o : Prog σ ω ε α).Confined f P := by
  cases o <;> exact ⟨fun _ => rfl, fun s o ho => by simp at ho⟩

/-- So does the outcome of a pure computation. -/
theorem confined_ofExcept (x : Except ε α) : (ofExcept x : Prog σ ω ε α).Confined f P := by
  cases x <;> exact ⟨fun _ => rfl, fun s o ho => by simp at ho⟩

/-- A pure computation whose exception is only turned into another leaves every view alone. -/
theorem confined_reraise {x : Except ε α} {handler : ε → Prog σ ω ε α}
    (hh : ∀ e, ∃ e', handler e = raise e') : ((ofExcept x).tryCatch handler).Confined f P := by
  cases x with
  | ok a => exact confined_pure a
  | error e =>
      obtain ⟨e', he'⟩ := hh e
      have hraise : (ofExcept (.error e)).tryCatch handler = ofExcept (.error e') := he'
      rw [hraise]
      exact confined_ofExcept _

/-- So does reading the state. -/
theorem confined_read : (read : Prog σ ω ε σ).Confined f P :=
  ⟨fun _ => rfl, fun s o ho => by simp at ho⟩

/-- A change of the state that the view does not show. -/
theorem confined_modify {u : σ → σ} (h : ∀ s, f (u s) = f s) :
    (modify u : Prog σ ω ε Unit).Confined f P :=
  ⟨h, fun s o ho => by simp at ho⟩

/-- A sequence of confined programs is confined. -/
theorem confined_bind (hp : p.Confined f P) (hg : ∀ a, (g a).Confined f P) :
    (p >>= g).Confined f P := by
  refine ⟨fun s => ?_, fun s o ho => ?_⟩
  · rw [run_bind, Outcome.andThen]
    split
    · exact ((hg _).keeps _).trans (hp.keeps s)
    · exact hp.keeps s
  · rw [run_bind, Outcome.andThen] at ho
    split at ho
    · rcases List.mem_append.mp ho with ho | ho
      · exact hp.emits s o ho
      · exact (hg _).emits _ o ho
    · exact hp.emits s o ho

end Frame

/-- `Confined` when outward actions can fail. -/
structure ConfinedWith {γ : Type*} (ans : ℕ → ω → Except ε Unit) (f : σ → γ) (P : ω → Prop)
    (p : Prog σ ω ε α) : Prop where
  keeps : ∀ n s, f (p.runWith ans n s).state = f s
  emits : ∀ n s, ∀ o ∈ (p.runWith ans n s).out, P o

section FrameWith

variable {γ : Type*} {ans : ℕ → ω → Except ε Unit} {f : σ → γ} {P : ω → Prop}
variable {p : Prog σ ω ε α} {g : α → Prog σ ω ε β}

/-- Returning leaves every view alone, whatever the calls answer. -/
theorem confinedWith_pure (a : α) : (pure a : Prog σ ω ε α).ConfinedWith ans f P :=
  ⟨fun _ _ => rfl, fun n s o ho => by simp at ho⟩

/-- So does raising. -/
theorem confinedWith_raise (e : ε) : (raise e : Prog σ ω ε α).ConfinedWith ans f P :=
  ⟨fun _ _ => rfl, fun n s o ho => by simp [runWith] at ho⟩

/-- So does reading the state. -/
theorem confinedWith_read : (read : Prog σ ω ε σ).ConfinedWith ans f P :=
  ⟨fun _ _ => rfl, fun n s o ho => by simp at ho⟩

/-- A change of the state that the view does not show. -/
theorem confinedWith_modify {u : σ → σ} (h : ∀ s, f (u s) = f s) :
    (modify u : Prog σ ω ε Unit).ConfinedWith ans f P :=
  ⟨fun _ => h, fun n s o ho => by simp at ho⟩

/-- A call of a permitted kind, whether it raises or not. -/
theorem confinedWith_call {o : ω} (h : P o) :
    (call o : Prog σ ω ε Unit).ConfinedWith ans f P := by
  refine ⟨fun n s => by rw [runWith_call], fun n s o' ho' => ?_⟩
  rw [runWith_call] at ho'
  obtain rfl : o' = o := by simpa using ho'
  exact h

/-- A sequence of confined programs is confined. -/
theorem confinedWith_bind (hp : p.ConfinedWith ans f P) (hg : ∀ a, (g a).ConfinedWith ans f P) :
    (p >>= g).ConfinedWith ans f P := by
  refine ⟨fun n s => ?_, fun n s o ho => ?_⟩
  · rw [runWith_bind, Outcome.andThen]
    split
    · exact ((hg _).keeps _ _).trans (hp.keeps n s)
    · exact hp.keeps n s
  · rw [runWith_bind, Outcome.andThen] at ho
    split at ho
    · rcases List.mem_append.mp ho with ho | ho
      · exact hp.emits n s o ho
      · exact (hg _).emits _ _ o ho
    · exact hp.emits n s o ho

end FrameWith

end Prog

end Common
