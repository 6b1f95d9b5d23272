import Mathlib.Algebra.Order.Field.Rat
import Mathlib.Data.Rat.Cast.Order
import SdnFirewall.Packet.Mininet
import SdnFirewall.Rest.Wsgi

/-!
# Setting the rate limit

`set_rate_limit` stores the limit before it has converted the window, and checks neither: what the
two fields of a request come to decides whether the limiter is left with the pair that was asked
for, with the old pair, or with something else.
-/

namespace SdnFirewall

open Common Python

/-- The number a value stands for; `none` where `int(x)` raises. -/
def numberOf? : Json → Option ℚ
  | .bool b => some (if b then 1 else 0)
  | .int z => some z
  | .float (.fin q) => some q
  | .str s => (intOfString s).map fun z => (z : ℚ)
  | _ => none

/-- A number without its fraction. -/
def wholePart (q : ℚ) : ℤ := q.num.tdiv q.den

/-- A whole number is its own whole part. -/
theorem wholePart_intCast (z : ℤ) : wholePart z = z := by
  simp [wholePart]

/-- A whole number is its whole part. -/
theorem wholePart_eq_iff {q : ℚ} : q = (wholePart q : ℚ) ↔ q.den = 1 := by
  constructor
  · intro h
    rw [h]
    exact Rat.den_intCast _
  · intro h
    rw [wholePart, h, Nat.cast_one, Int.tdiv_one]
    exact (Rat.coe_int_num_of_den_eq_one h).symm

/-- `int(x)` cuts the fraction off the number. -/
theorem toInt_cases (x : Json) :
    (∃ q, numberOf? x = some q ∧ x.toInt = .ok (wholePart q)) ∨
      (numberOf? x = none ∧ ∃ e, x.toInt = .error e) := by
  cases x with
  | null | arr | obj => exact Or.inr ⟨rfl, _, rfl⟩
  | bool b =>
      refine Or.inl ⟨_, rfl, ?_⟩
      cases b <;> rfl
  | int z => exact Or.inl ⟨z, rfl, by rw [wholePart_intCast]; rfl⟩
  | float x =>
      cases x with
      | fin q => exact Or.inl ⟨q, rfl, rfl⟩
      | inf | nan => exact Or.inr ⟨rfl, _, rfl⟩
  | str s =>
      simp only [numberOf?, Json.toInt]
      cases intOfString s with
      | none => exact Or.inr ⟨rfl, _, rfl⟩
      | some z => exact Or.inl ⟨z, rfl, by rw [wholePart_intCast]⟩

/-- The number a request asks for in a field; a missing field asks for the present value. -/
def asked? (body : Except Exc Json) (field : String) (present : Json) : Option ℚ :=
  match body with
  | .error _ => none
  | .ok body =>
    match body.get field present with
    | .error _ => none
    | .ok x => numberOf? x

namespace FirewallApp

def limitAsked? (c : FirewallApp) (body : Except Exc Json) : Option ℚ :=
  asked? body "limit" (.int c.rateLimit)

def windowAsked? (c : FirewallApp) (body : Except Exc Json) : Option ℚ :=
  asked? body "window" (.float (.fin c.rateWindow))

/-- The limit and the window a request leaves. -/
def ratesAfter (c : FirewallApp) (body : Except Exc Json) : ℤ × ℚ :=
  match c.limitAsked? body, c.windowAsked? body with
  | none, _ => (c.rateLimit, c.rateWindow)
  | some limit, none => (wholePart limit, c.rateWindow)
  | some limit, some window => (wholePart limit, wholePart window)

/-- The state holds the limit and the window that were asked for, both at least one, or it holds
those it held before. -/
def AllOrNothing (c : FirewallApp) (body : Except Exc Json) (c' : FirewallApp) : Prop :=
  (c.limitAsked? body = some (c'.rateLimit : ℚ) ∧ c.windowAsked? body = some c'.rateWindow ∧
      1 ≤ c'.rateLimit ∧ 1 ≤ c'.rateWindow) ∨
    c'.rateLimit = c.rateLimit ∧ c'.rateWindow = c.rateWindow

/-- The limit cannot be read; or the window cannot and the limit comes to the present one; or both
are whole numbers from one on, or come to the present values. -/
def Settable (c : FirewallApp) (body : Except Exc Json) : Prop :=
  match c.limitAsked? body, c.windowAsked? body with
  | none, _ => True
  | some limit, none => wholePart limit = c.rateLimit
  | some limit, some window =>
    (limit.den = 1 ∧ window.den = 1 ∧ 1 ≤ limit ∧ 1 ≤ window) ∨
      wholePart limit = c.rateLimit ∧ (wholePart window : ℚ) = c.rateWindow

end FirewallApp

/-! ## The handler -/

/-- A log call leaves limit and window alone, whether its broadcasts go through or not. -/
theorem log_keepsRates (ans : ℕ → Effect → Except Exc Unit) (level msg src dst extra : String) :
    (log level msg src dst extra).ConfinedWith ans (fun c => (c.rateLimit, c.rateWindow))
      fun _ => True := by
  refine Prog.confinedWith_bind (Prog.confinedWith_modify fun _ => rfl) fun _ => ?_
  refine Prog.confinedWith_bind (Prog.confinedWith_call trivial) fun _ => ?_
  exact Prog.confinedWith_bind Prog.confinedWith_read fun c => Prog.confinedWith_call trivial

/-- The limit and the window after a request, whatever becomes of the broadcasts of its log call. -/
theorem rates_setRateLimit (ans : ℕ → Effect → Except Exc Unit) (n : ℕ) (c : FirewallApp)
    (body : Except Exc Json) :
    let s := ((setRateLimit body).runWith ans n c).state
    (s.rateLimit, s.rateWindow) = c.ratesAfter body := by
  cases body with
  | error e => rfl
  | ok json =>
  rw [setRateLimit, Prog.runWith_ofExcept_ok_bind, Prog.runWith_read_bind]
  simp only [FirewallApp.ratesAfter, FirewallApp.limitAsked?, FirewallApp.windowAsked?, asked?]
  cases json.get "limit" (.int c.rateLimit) with
  | error e => rfl
  | ok limit =>
  rw [Prog.runWith_ofExcept_ok_bind]
  dsimp only
  rcases toInt_cases limit with ⟨l, hl, hlimit⟩ | ⟨hl, e, hlimit⟩
  swap
  · rw [hl, hlimit]
    rfl
  rw [hl, hlimit, Prog.runWith_ofExcept_ok_bind, Prog.runWith_modify_bind, Prog.runWith_read_bind]
  dsimp only
  cases json.get "window" (.float (.fin c.rateWindow)) with
  | error e => rfl
  | ok window =>
  rw [Prog.runWith_ofExcept_ok_bind]
  dsimp only
  rcases toInt_cases window with ⟨w, hw, hwindow⟩ | ⟨hw, e, hwindow⟩
  swap
  · rw [hw, hwindow]
    rfl
  rw [hw, hwindow, Prog.runWith_ofExcept_ok_bind, Prog.runWith_modify_bind]
  -- only the log call is left
  exact (Prog.confinedWith_bind (log_keepsRates ans ..) fun _ => Prog.confinedWith_pure _).keeps _ _

/-- What `AllOrNothing` says of the limit and the window a request leaves. -/
theorem allOrNothing_iff_settable {c c' : FirewallApp} {body : Except Exc Json}
    (h : (c'.rateLimit, c'.rateWindow) = c.ratesAfter body) :
    c.AllOrNothing body c' ↔ c.Settable body := by
  rw [FirewallApp.AllOrNothing, FirewallApp.Settable]
  rw [FirewallApp.ratesAfter] at h
  cases hl : c.limitAsked? body with
  | none =>
      rw [hl] at h
      obtain ⟨hlimit, hwindow⟩ := Prod.mk.inj h
      exact iff_of_true (Or.inr ⟨hlimit, hwindow⟩) trivial
  | some limit =>
      cases hw : c.windowAsked? body with
      | none =>
          -- the window does not convert, and the limit is stored already
          rw [hl, hw] at h
          obtain ⟨hlimit, hwindow⟩ := Prod.mk.inj h
          rw [hlimit, hwindow]
          simp
      | some window =>
          rw [hl, hw] at h
          obtain ⟨hlimit, hwindow⟩ := Prod.mk.inj h
          rw [hlimit, hwindow]
          refine or_congr ?_ Iff.rfl
          rw [Option.some.injEq, Option.some.injEq, wholePart_eq_iff, wholePart_eq_iff]
          refine and_congr_right fun hlimit => and_congr_right fun hwindow => ?_
          have hl' := wholePart_eq_iff.mpr hlimit
          have hw' := wholePart_eq_iff.mpr hwindow
          rw [← hw']
          refine and_congr ?_ Iff.rfl
          conv_rhs => rw [hl']
          exact_mod_cast Iff.rfl

/-- A request leaves the limiter with the pair asked for or with the old one exactly if its fields
are settable, however the call ends. -/
theorem setRateLimit_allOrNothing_iff (ans : ℕ → Effect → Except Exc Unit) (n : ℕ)
    (c : FirewallApp) (body : Except Exc Json) :
    c.AllOrNothing body ((setRateLimit body).runWith ans n c).state ↔ c.Settable body :=
  allOrNothing_iff_settable (rates_setRateLimit ans n c body)

/-- The request of the dashboard whose field for the window is empty. -/
def emptyWindowBody : Except Exc Json := .ok (.obj [("limit", .int 5), ("window", .null)])

/-- The limit is set and the window is not. -/
theorem not_allOrNothing_emptyWindowBody :
    1 ≤ (FirewallApp.init builtinEngine).rateLimit ∧
      1 ≤ (FirewallApp.init builtinEngine).rateWindow ∧
      ¬ (FirewallApp.init builtinEngine).AllOrNothing emptyWindowBody
        ((setRateLimit emptyWindowBody).run (FirewallApp.init builtinEngine)).state := by
  refine ⟨by decide, by decide, ?_⟩
  rintro (⟨-, hwindow, -⟩ | ⟨hlimit, -⟩)
  · cases hwindow
  · revert hlimit
    decide

end SdnFirewall
