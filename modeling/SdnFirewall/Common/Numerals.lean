import Mathlib.Data.Nat.Basic
import SdnFirewall.Common.Python

/-!
# Decimal numerals

A list of digits is the numeral of a number when it is not empty and has no superfluous zero in
front. Reading and writing numerals are inverse to each other.
-/

namespace Common

/-- The characters are a decimal numeral without superfluous zeros. -/
structure Numeral (cs : List Char) : Prop where
  ne_nil : cs ≠ []
  digits : ∀ c ∈ cs, c.isDigit
  noLeadingZero : cs = ['0'] ∨ cs.head? ≠ some '0'

/-- The digits have the codes 48 to 57. -/
theorem toNat_of_isDigit {c : Char} (h : c.isDigit) : 48 ≤ c.toNat ∧ c.toNat ≤ 57 := by
  simp only [Char.isDigit, Bool.and_eq_true, decide_eq_true_eq] at h
  exact h

/-- A digit is the one that its value is written with. -/
theorem digitChar_of_isDigit {c : Char} (h : c.isDigit) :
    c.toNat - 48 < 10 ∧ Nat.digitChar (c.toNat - 48) = c := by
  have hrange := toNat_of_isDigit h
  obtain ⟨n, hn⟩ : ∃ n, c.toNat = 48 + n := ⟨c.toNat - 48, by omega⟩
  have hlt : n < 10 := by omega
  have hc : c = Char.ofNat (48 + n) := by rw [← hn, Char.ofNat_toNat]
  rw [hn, Nat.add_sub_cancel_left, hc]
  clear hn hc h hrange
  decide +revert

/-- Digits read on from a positive number are written behind it. -/
theorem toDigits_append {acc : ℕ} {cs : List Char} (hacc : 0 < acc) (hcs : ∀ c ∈ cs, c.isDigit) :
    Nat.toDigits 10 acc ++ cs = Nat.toDigits 10 (Nat.ofDigitChars 10 cs acc) := by
  induction cs generalizing acc with
  | nil => rw [List.append_nil, Nat.ofDigitChars_nil]
  | cons c cs ih =>
      obtain ⟨hlt, hc⟩ := digitChar_of_isDigit (hcs c List.mem_cons_self)
      have hwrite : Nat.toDigits 10 acc ++ [c] = Nat.toDigits 10 (10 * acc + (c.toNat - 48)) := by
        rw [← Nat.toDigits_append_toDigits (by decide) hacc hlt, Nat.toDigits_of_lt_base hlt, hc]
      rw [Nat.ofDigitChars_cons, List.append_cons, hwrite]
      exact ih (by omega) fun c' hc' => hcs c' (List.mem_cons_of_mem _ hc')

/-- Reading a numeral and writing the number down again gives the same digits. -/
theorem Numeral.toDigits_ofDigitChars {cs : List Char} (h : Numeral cs) :
    Nat.toDigits 10 (Nat.ofDigitChars 10 cs 0) = cs := by
  rcases h.noLeadingZero with rfl | hhead
  · rfl
  cases cs with
  | nil => exact absurd rfl h.ne_nil
  | cons c cs =>
      obtain ⟨hlt, hc⟩ := digitChar_of_isDigit (h.digits c List.mem_cons_self)
      have hpos : 0 < c.toNat - 48 := by
        rw [Nat.pos_iff_ne_zero]
        intro h0
        rw [h0] at hc
        exact hhead (by rw [← hc]; rfl)
      rw [Nat.ofDigitChars_cons, Nat.mul_zero, Nat.zero_add]
      refine (toDigits_append hpos
        fun c' hc' => h.digits c' (List.mem_cons_of_mem _ hc')).symm.trans ?_
      rw [Nat.toDigits_of_lt_base hlt, hc, List.singleton_append]

/-- The numeral of a positive number does not begin with a zero. -/
theorem head?_toDigits {n : ℕ} (h : 0 < n) : (Nat.toDigits 10 n).head? ≠ some '0' := by
  induction n using Nat.strongRecOn with
  | ind n ih =>
      rw [Nat.toDigits_eq_if (by decide)]
      split
      · have hdigit : ∀ d < 10, 0 < d → [Nat.digitChar d].head? ≠ some '0' := by decide
        exact hdigit n ‹_› h
      · have hhead := ih (n / 10) (by omega) (by omega)
        rw [List.head?_append]
        cases htens : (Nat.toDigits 10 (n / 10)).head? with
        | none => exact absurd (List.head?_eq_none_iff.mp htens) Nat.toDigits_ne_nil
        | some c => simpa [htens] using hhead

/-- What is written for a number is a numeral. -/
theorem numeral_toDigits (n : ℕ) : Numeral (Nat.toDigits 10 n) where
  ne_nil := Nat.toDigits_ne_nil
  digits := fun _ hc => Nat.isDigit_of_mem_toDigits (by decide) (by decide) hc
  noLeadingZero := by
    rcases Nat.eq_zero_or_pos n with rfl | h
    · exact Or.inl (Nat.toDigits_zero 10)
    · exact Or.inr (head?_toDigits h)

end Common

/-! ## What Python reads -/

namespace Python

open Common

/-- A digit is read as its value. -/
theorem digit?_of_isDigit {c : Char} (h : c.isDigit) : digit? c = some (c.toNat - 48) := by
  have hrange := toNat_of_isDigit h
  simp [digit?, digitZeros, hrange.1, hrange.2]

/-- Digits are read to their end. -/
theorem moreDigits_of_isDigit {cs : List Char} (hcs : ∀ c ∈ cs, c.isDigit) (acc count : ℕ) :
    moreDigits acc count cs = some (Nat.ofDigitChars 10 cs acc, count + cs.length) := by
  induction cs generalizing acc count with
  | nil => rfl
  | cons c cs ih =>
      have hc := hcs c List.mem_cons_self
      have hne : c ≠ '_' := by
        rintro rfl
        exact absurd hc (by decide)
      rw [moreDigits, digit?_of_isDigit hc, Option.bind_some,
        ih fun c' hc' => hcs c' (List.mem_cons_of_mem _ hc'), Nat.ofDigitChars_cons,
        List.length_cons, Nat.mul_comm acc]
      · simp [Nat.add_comm, Nat.add_left_comm]
      · rintro c' cs' rfl
        exact absurd rfl hne

/-- A numeral is read as the number it is written for, if it is not too long to be read. -/
theorem unsigned?_toDigits {n : ℕ} (h : (Nat.toDigits 10 n).length ≤ 4300) :
    unsigned? (Nat.toDigits 10 n) = some n := by
  have hn := numeral_toDigits n
  have hvalue := Nat.ofDigitChars_ten_toDigits (n := n)
  cases hcs : Nat.toDigits 10 n with
  | nil => exact absurd hcs hn.ne_nil
  | cons c cs =>
      rw [hcs] at h hvalue hn
      have hc := hn.digits c List.mem_cons_self
      rw [Nat.ofDigitChars_cons, Nat.mul_zero, Nat.zero_add] at hvalue
      have hmore := moreDigits_of_isDigit
        (fun c' hc' => hn.digits c' (List.mem_cons_of_mem _ hc')) (c.toNat - 48) 1
      have hlen : 1 + cs.length ≤ 4300 := by
        rw [List.length_cons] at h
        omega
      simp only [unsigned?, digit?_of_isDigit hc, hmore, Option.bind_eq_bind, Option.bind_some,
        if_pos hlen]
      exact congrArg some hvalue

/-- A digit is no white space. -/
theorem isSpace_of_isDigit {c : Char} (h : c.isDigit) : isSpace c = false := by
  have hrange := toNat_of_isDigit h
  simp only [isSpace, decide_eq_false_iff_not]
  omega

/-- Digits are left alone where white space is taken off. -/
theorem stripChars_of_isDigit {cs : List Char} (hcs : ∀ c ∈ cs, c.isDigit) :
    stripChars isIntSpace cs = cs := by
  have hkeep : ∀ cs : List Char, (∀ c ∈ cs, c.isDigit) → cs.dropWhile isIntSpace = cs := by
    intro cs hcs
    cases cs with
    | nil => rfl
    | cons c cs =>
        have hc := isSpace_of_isDigit (hcs c List.mem_cons_self)
        exact List.dropWhile_cons_of_neg (by simp [isIntSpace, hc])
  rw [stripChars, hkeep cs hcs, hkeep _ fun c hc => hcs c (List.mem_reverse.mp hc),
    List.reverse_reverse]

/-- `int(str(n))`, below the limit on digits. -/
theorem intOfString_toString {n : ℕ} (h : (Nat.toDigits 10 n).length ≤ 4300) :
    intOfString (toString n) = some (n : ℤ) := by
  have hn := numeral_toDigits n
  have hlist : (toString n).toList = Nat.toDigits 10 n := by simp
  have hread := unsigned?_toDigits h
  rw [intOfString, hlist, stripChars_of_isDigit hn.digits]
  cases hcs : Nat.toDigits 10 n with
  | nil => exact absurd hcs hn.ne_nil
  | cons c cs =>
      rw [hcs] at hread hn
      have hc := hn.digits c List.mem_cons_self
      split
      · rename_i heq
        rw [(List.cons.inj heq).1] at hc
        exact absurd hc (by decide)
      · rename_i heq
        rw [(List.cons.inj heq).1] at hc
        exact absurd hc (by decide)
      · rw [hread]
        rfl

end Python
