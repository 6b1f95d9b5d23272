import SdnFirewall.Common.Sections

/-!
# Calls on a part of the state

A component that keeps its own state is written as a call on that state alone. `Prog.onPart` makes
it a call on the state of the whole, and what is known of the component's own runs holds there.
-/

namespace Common

namespace Prog

variable {σ τ ω ε α β : Type}

/-- A call on a part of the state, as a call on the whole. The part acts on nothing outside. -/
def onPart (part : σ → τ) (put : σ → τ → σ) : Prog τ Empty ε α → Prog σ ω ε α
  | ret a => ret a
  | raise e => raise e
  | get k => get fun s => onPart part put (k (part s))
  | set t k => get fun s => set (put s t) (onPart part put k)
  | emit o _ => o.elim

/-- What is put into the part is found there, replaces what was put there before, and changes
nothing where it was there already. -/
structure IsPart (part : σ → τ) (put : σ → τ → σ) : Prop where
  part_put : ∀ s t, part (put s t) = t
  put_put : ∀ s t t', put (put s t) t' = put s t'
  put_part : ∀ s, put s (part s) = s

section OnPart

variable {part : σ → τ} {put : σ → τ → σ}

/-- Run on the whole, the call does to the part what it does to it alone. -/
theorem run_onPart (h : IsPart part put) (p : Prog τ Empty ε α) (s : σ) :
    (onPart part put p : Prog σ ω ε α).run s =
      ⟨(p.run (part s)).val, put s (p.run (part s)).state, []⟩ := by
  induction p generalizing s with
  | ret a => simp [onPart, run, h.put_part]
  | raise e => simp [onPart, run, h.put_part]
  | get k ih => exact ih (part s) s
  | set t k ih =>
      have hrest := ih (put s t)
      rw [h.part_put, h.put_put] at hrest
      exact hrest
  | emit o => exact o.elim

/-- No outward action of the whole can make a call on a part fail. -/
theorem runWith_onPart (h : IsPart part put) (p : Prog τ Empty ε α)
    (ans : ℕ → ω → Except ε Unit) (n : ℕ) (s : σ) :
    (onPart part put p : Prog σ ω ε α).runWith ans n s =
      ⟨(p.run (part s)).val, put s (p.run (part s)).state, []⟩ := by
  have hsilent : ((onPart part put p : Prog σ ω ε α).run s).out = [] := by rw [run_onPart h]
  rw [runWith_eq_run (by simp [hsilent]), run_onPart h]

/-- A call on a part is over within its section; then comes what follows it, or the handler of what
it raised. -/
theorem settle_onPart_tryCatch (h : IsPart part put) (p : Prog τ Empty ε α)
    (g : α → Prog σ ω ε β) (handler : ε → Prog σ ω ε β) (s : σ) :
    ((onPart part put p >>= g).tryCatch handler).settle s =
      match (p.run (part s)).val with
      | .ok a => ((g a).tryCatch handler).settle (put s (p.run (part s)).state)
      | .error e => (handler e).settle (put s (p.run (part s)).state) := by
  induction p generalizing s with
  | ret a =>
      simp only [run, h.put_part]
      rfl
  | raise e =>
      simp only [run, h.put_part]
      rfl
  | get k ih => exact ih (part s) s
  | set t k ih =>
      have hrest := ih (put s t)
      rw [h.part_put, h.put_put] at hrest
      exact hrest
  | emit o => exact o.elim

/-- A call on a part followed by what does not start with an output does not start with one. -/
theorem onPart_bind_ne_emit {p : Prog τ Empty ε α} {g : α → Prog σ ω ε β}
    (hg : ∀ a o k, g a ≠ emit o k) (o : ω) (k : Except ε Unit → Prog σ ω ε β) :
    onPart part put p >>= g ≠ emit o k := by
  cases p with
  | ret a => exact hg a o k
  | raise | get | set => rintro ⟨⟩
  | emit o' => exact o'.elim

end OnPart

/-- Neither does a guarded program, if neither of its ways does. -/
theorem tryCatch_ne_emit {p : Prog σ ω ε α} {handler : ε → Prog σ ω ε α}
    (hp : ∀ o k, p ≠ emit o k) (hh : ∀ e o k, handler e ≠ emit o k) (o : ω)
    (k : Except ε Unit → Prog σ ω ε α) : p.tryCatch handler ≠ emit o k := by
  cases p with
  | ret | get | set => rintro ⟨⟩
  | raise e => exact hh e o k
  | emit o' k' => exact absurd rfl (hp o' k')

/-! ## All or nothing -/

/-- A call that raises leaves the state as it found it. -/
def AllOrNothing (p : Prog σ ω ε α) : Prop :=
  ∀ s e, (p.run s).val = .error e → (p.run s).state = s

section AllOrNothing

variable {P : ω → Prop} {p : Prog σ ω ε α} {g : α → Prog σ ω ε β}

/-- A call that does not raise. -/
theorem allOrNothing_of_returns (h : ∀ s, p.Returns s) : p.AllOrNothing := by
  intro s e he
  obtain ⟨a, ha⟩ := h s
  rw [ha] at he
  cases he

/-- What only reads may come first. -/
theorem allOrNothing_bind (hp : p.Confined id P) (hg : ∀ a, (g a).AllOrNothing) :
    (p >>= g).AllOrNothing := by
  intro s e he
  have hkeep : (p.run s).state = s := hp.keeps s
  rw [run_bind, Outcome.andThen] at he ⊢
  rw [hkeep] at he ⊢
  cases hval : (p.run s).val with
  | error e' => rfl
  | ok a =>
      rw [hval] at he
      exact hg a s e he

/-- A check may come first. -/
theorem allOrNothing_check_bind {c : Prop} [Decidable c] {e : ε} {f : PUnit → Prog σ ω ε β}
    (hf : (f ⟨⟩).AllOrNothing) :
    (if c then (raise e : Prog σ ω ε PUnit) >>= f else f ⟨⟩).AllOrNothing := by
  split
  · exact fun s e' _ => rfl
  · exact hf

end AllOrNothing

end Prog

end Common
