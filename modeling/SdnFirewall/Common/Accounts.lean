import SdnFirewall.Common.Prog
import SdnFirewall.Common.Runs

/-!
# Accounts of what calls do

A relation between the state before a call, the actions of the call and the state after it, which
composes along sequencing. A call keeps the account if the relation holds however the call ends, so
a whole call is checked part by part, and a run of a machine event by event.
-/

namespace Common

/-- A relation between states and the actions between them that goes through sequencing. -/
structure Account (σ ω : Type) where
  rel : σ → List ω → σ → Prop
  refl : ∀ s, rel s [] s
  trans : ∀ {s s' s'' os os'}, rel s os s' → rel s' os' s'' → rel s (os ++ os') s''

variable {σ ω ε α β : Type}

namespace Prog

/-- Whatever state it starts from and however it ends, the call keeps the account. -/
structure Keeps (A : Account σ ω) (p : Prog σ ω ε α) : Prop where
  of_run : ∀ s, A.rel s (p.run s).out (p.run s).state

variable {A : Account σ ω} {p : Prog σ ω ε α} {g : α → Prog σ ω ε β}

/-- Returning changes nothing and calls nobody, which every account allows. -/
theorem keeps_pure (a : α) : (pure a : Prog σ ω ε α).Keeps A := ⟨A.refl⟩

/-- So does raising. -/
theorem keeps_raise (e : ε) : (raise e : Prog σ ω ε α).Keeps A := ⟨A.refl⟩

/-- So does reading the state. -/
theorem keeps_read : (read : Prog σ ω ε σ).Keeps A := ⟨A.refl⟩

/-- An option that is unwrapped changes nothing either way. -/
theorem keeps_orRaise (e : ε) (o : Option α) : (orRaise e o : Prog σ ω ε α).Keeps A := by
  cases o with
  | none => exact keeps_raise e
  | some a => exact keeps_pure a

/-- Neither does the outcome of a pure computation. -/
theorem keeps_ofExcept (x : Except ε α) : (ofExcept x : Prog σ ω ε α).Keeps A := by
  cases x with
  | ok a => exact keeps_pure a
  | error e => exact keeps_raise e

/-- A change of the state keeps the account if the account allows it without an output. -/
theorem keeps_modify {u : σ → σ} (h : ∀ s, A.rel s [] (u s)) :
    (modify u : Prog σ ω ε Unit).Keeps A := ⟨h⟩

/-- An outward call keeps the account if the account allows the call where the state stays. -/
theorem keeps_call {o : ω} (h : ∀ s, A.rel s [o] s) : (call o : Prog σ ω ε Unit).Keeps A := ⟨h⟩

/-- What both parts of a sequence keep, the sequence keeps: an account is transitive. -/
theorem keeps_bind (hp : p.Keeps A) (hg : ∀ a, (g a).Keeps A) : (p >>= g).Keeps A := by
  refine ⟨fun s => ?_⟩
  rw [run_bind, Outcome.andThen]
  cases hv : (p.run s).val with
  | ok a => exact A.trans (hp.of_run s) ((hg a).of_run _)
  -- an exception skips the second part
  | error e => exact hp.of_run s

/-- So does a guarded program, whichever way it goes. -/
theorem keeps_tryCatch {h : ε → Prog σ ω ε α} (hp : p.Keeps A) (hh : ∀ e, (h e).Keeps A) :
    (p.tryCatch h).Keeps A := by
  refine ⟨fun s => ?_⟩
  rw [run_tryCatch, Outcome.orElse]
  cases hv : (p.run s).val with
  | ok a => exact hp.of_run s
  -- the handler starts from the state in which the exception was raised
  | error e => exact A.trans (hp.of_run s) ((hh e).of_run _)

end Prog

/-- An account that every event keeps is kept by every run. -/
theorem Account.rel_run {E : Type*} (A : Account σ ω) {step : σ → E → σ} {f : σ → E → List ω}
    (h : ∀ s e, A.rel s (f s e) (step s e)) (s : σ) (es : List E) :
    A.rel s (outputs step f s es) (runFrom step s es) := by
  -- from any state, as the state moves along with the run
  induction es generalizing s with
  | nil => exact A.refl s
  | cons e es ih => exact A.trans (h s e) (ih (step s e))

end Common
