import SdnFirewall.Common.Prog

/-!
# Atomic sections

Calls that give way to one another at their outward actions run in sections, each from one outward
action to the next. Between two sections the state is whatever the other calls have made of it, so
what is said of a call here is said for every state it may find itself in.
-/

namespace Common

namespace Prog

variable {σ ω ε α β : Type}

/-- Run a call up to its next outward action, or to its end. -/
def settle : Prog σ ω ε α → σ → Prog σ ω ε α × σ
  | ret a, s => (ret a, s)
  | raise e, s => (raise e, s)
  | get k, s => settle (k s) s
  | set s k, _ => settle k s
  | emit o k, s => (emit o k, s)

/-- The call has returned or raised. -/
def Ended : Prog σ ω ε α → Prop
  | ret _ | raise _ => True
  | _ => False

instance (p : Prog σ ω ε α) : Decidable p.Ended :=
  match p with
  | ret _ | raise _ => .isTrue trivial
  | get _ | set _ _ | emit _ _ => .isFalse id

@[simp] theorem settle_emit (o : ω) (k : Except ε Unit → Prog σ ω ε α) (s : σ) :
    (emit o k).settle s = (emit o k, s) := rfl

/-- An ended call stays what it is. -/
theorem settle_of_ended {p : Prog σ ω ε α} (h : p.Ended) (s : σ) : p.settle s = (p, s) := by
  cases p with
  | ret | raise => rfl
  | get | set | emit => exact h.elim

/-- In every section, from the state `s` on, `p` keeps the view `f` of the state it finds, and all
its outward actions satisfy `P`. -/
def FramedAt {γ : Type*} (f : σ → γ) (P : ω → Prop) : Prog σ ω ε α → σ → Prop
  | ret _, _ | raise _, _ => True
  | get k, s => FramedAt f P (k s) s
  | set s' k, s => f s' = f s ∧ FramedAt f P k s'
  | emit o k, _ => P o ∧ ∀ r s, FramedAt f P (k r) s

/-- The same from any state on. -/
structure Framed {γ : Type*} (f : σ → γ) (P : ω → Prop) (p : Prog σ ω ε α) : Prop where
  framedAt : ∀ s, p.FramedAt f P s

section Frame

variable {γ : Type*} {f : σ → γ} {P : ω → Prop} {p : Prog σ ω ε α} {g : α → Prog σ ω ε β}

/-- Returning is within every frame. -/
theorem framed_pure (a : α) : (pure a : Prog σ ω ε α).Framed f P := ⟨fun _ => trivial⟩

/-- So is raising. -/
theorem framed_raise (e : ε) : (raise e : Prog σ ω ε α).Framed f P := ⟨fun _ => trivial⟩

/-- So is reading the state. -/
theorem framed_read : (read : Prog σ ω ε σ).Framed f P := ⟨fun _ => trivial⟩

/-- A change of the state that the view does not show. -/
theorem framed_modify {u : σ → σ} (h : ∀ s, f (u s) = f s) :
    (modify u : Prog σ ω ε Unit).Framed f P := ⟨fun s => ⟨h s, trivial⟩⟩

/-- An output of a permitted kind. -/
theorem framed_call {o : ω} (h : P o) : (call o : Prog σ ω ε Unit).Framed f P := by
  refine ⟨fun _ => ⟨h, fun r s => ?_⟩⟩
  cases r <;> trivial

/-- An option that is unwrapped. -/
theorem framed_orRaise (e : ε) (o : Option α) : (orRaise e o : Prog σ ω ε α).Framed f P := by
  cases o <;> exact ⟨fun _ => trivial⟩

/-- The outcome of a pure computation. -/
theorem framed_ofExcept (x : Except ε α) : (ofExcept x : Prog σ ω ε α).Framed f P := by
  cases x <;> exact ⟨fun _ => trivial⟩

/-- The first part of a sequence need only be within the frame where it starts. -/
theorem FramedAt.bind {s : σ} (hp : p.FramedAt f P s) (hg : ∀ a, (g a).Framed f P) :
    (p >>= g).FramedAt f P s := by
  show (p.bind g).FramedAt f P s
  induction p generalizing s with
  | ret a => exact (hg a).framedAt s
  | raise e => trivial
  | get k ih => exact ih s hp
  | set s' k ih => exact ⟨hp.1, ih hp.2⟩
  | emit o k ih => exact ⟨hp.1, fun r s => ih r (hp.2 r s)⟩

/-- A sequence of programs within a frame is within it. -/
theorem framed_bind (hp : p.Framed f P) (hg : ∀ a, (g a).Framed f P) :
    (p >>= g).Framed f P := ⟨fun s => (hp.framedAt s).bind hg⟩

/-- So is a guarded program, whichever way it goes. -/
theorem framed_tryCatch {h : ε → Prog σ ω ε α} (hp : p.Framed f P) (hh : ∀ e, (h e).Framed f P) :
    (p.tryCatch h).Framed f P := by
  refine ⟨fun s => ?_⟩
  replace hp := hp.framedAt s
  induction p generalizing s with
  | ret a => trivial
  | raise e => exact (hh e).framedAt s
  | get k ih => exact ih s s hp
  | set s' k ih => exact ⟨hp.1, ih s' hp.2⟩
  | emit o k ih => exact ⟨hp.1, fun r s => ih r s (hp.2 r s)⟩

/-- A section keeps the view, and what is left of the call is confined in the same way. -/
theorem FramedAt.settle {s : σ} (h : p.FramedAt f P s) :
    f (p.settle s).2 = f s ∧ (p.settle s).1.Framed f P := by
  induction p generalizing s with
  | ret a => exact ⟨rfl, framed_pure a⟩
  | raise e => exact ⟨rfl, framed_raise e⟩
  | get k ih => exact ih s h
  | set s' k ih =>
      obtain ⟨hkeep, hrest⟩ := ih h.2
      exact ⟨hkeep.trans h.1, hrest⟩
  | emit o k ih => exact ⟨rfl, ⟨fun _ => h⟩⟩

/-- Run without a break, the call keeps the view as well. -/
theorem FramedAt.keeps {s : σ} (h : p.FramedAt f P s) : f (p.run s).state = f s := by
  induction p generalizing s with
  | ret | raise => rfl
  | get k ih => exact ih s h
  | set s' k ih => exact (ih h.2).trans h.1
  | emit o k ih => exact ih (.ok ()) (h.2 (.ok ()) s)

/-- An output within a frame is of a permitted kind, and so is all that follows it. -/
theorem Framed.emit {o : ω} {k : Except ε Unit → Prog σ ω ε α} [Nonempty σ]
    (h : (Prog.emit o k).Framed f P) : P o ∧ ∀ r, (k r).Framed f P := by
  obtain ⟨s⟩ := ‹Nonempty σ›
  exact ⟨(h.framedAt s).1, fun r => ⟨(h.framedAt s).2 r⟩⟩

end Frame

end Prog

end Common
