import Mathlib.Algebra.Order.Monoid.Unbundled.Pow
import Mathlib.Data.List.Basic
import Mathlib.Tactic.Ring

/-!
# Packed records

Unsigned integers in network byte order, one behind the other, with padding between them, as
`struct.pack` and `struct.unpack_from` write and read them. What was packed is unpacked again from
whatever buffer it stands in.
-/

namespace Struct

/-! ## Integers -/

/-- The lowest `size` bytes of a number, most significant first, in front of `rest`. -/
def bytesBefore : ℕ → ℕ → List UInt8 → List UInt8
  | 0, _, rest => rest
  | size + 1, n, rest => bytesBefore size (n / 256) (UInt8.ofNat n :: rest)

/-- A number as `size` bytes. -/
def uintBytes (size n : ℕ) : List UInt8 := bytesBefore size n []

/-- The number that some bytes stand for, read on from `acc`. -/
def readUint (acc : ℕ) (bs : List UInt8) : ℕ := bs.foldl (fun n b => n * 256 + b.toNat) acc

/-- The number that some bytes stand for. -/
def uintOf (bs : List UInt8) : ℕ := readUint 0 bs

/-- The bytes of a number are put before what is already there. -/
theorem bytesBefore_eq (size n : ℕ) (rest : List UInt8) :
    bytesBefore size n rest = uintBytes size n ++ rest := by
  induction size generalizing n rest with
  | zero => rfl
  | succ size ih =>
      rw [uintBytes, bytesBefore, bytesBefore, ih, ih _ [_], List.append_assoc,
        List.singleton_append]

@[simp] theorem length_uintBytes (size n : ℕ) : (uintBytes size n).length = size := by
  induction size generalizing n with
  | zero => rfl
  | succ size ih =>
      rw [uintBytes, bytesBefore, bytesBefore_eq, List.length_append, ih, List.length_singleton]

/-- Reading the bytes of a number gives it back, as far as they reach. -/
theorem readUint_bytesBefore (size n : ℕ) (rest : List UInt8) (acc : ℕ) :
    readUint acc (bytesBefore size n rest) =
      readUint (acc * 256 ^ size + n % 256 ^ size) rest := by
  induction size generalizing n rest with
  | zero => simp [bytesBefore, Nat.mod_one]
  | succ size ih =>
      have hlow : (UInt8.ofNat n).toNat = n % 256 := UInt8.toNat_ofNat'
      rw [bytesBefore, ih, readUint, readUint, List.foldl_cons, hlow, pow_succ', Nat.mod_mul]
      ring_nf

/-- A number that fits is read back. -/
theorem uintOf_uintBytes {size n : ℕ} (h : n < 256 ^ size) : uintOf (uintBytes size n) = n := by
  rw [uintOf, uintBytes, readUint_bytesBefore, Nat.zero_mul, Nat.zero_add, Nat.mod_eq_of_lt h]
  rfl

/-- A number of so many bytes is below the power of 256. -/
theorem readUint_lt {acc n : ℕ} (bs : List UInt8) (h : acc < n) :
    readUint acc bs < n * 256 ^ bs.length := by
  induction bs generalizing acc n with
  | nil => simpa [readUint] using h
  | cons b bs ih =>
      have hb : b.toNat < 256 := b.toNat_lt
      have hacc : acc * 256 + b.toNat < n * 256 := by omega
      rw [List.length_cons, pow_succ', ← Nat.mul_assoc]
      exact ih hacc

/-- A number that was read fits into as many bytes. -/
theorem uintOf_lt (bs : List UInt8) : uintOf bs < 256 ^ bs.length := by
  simpa [uintOf] using readUint_lt bs Nat.zero_lt_one

/-! ## Formats -/

/-- An item of a format: an integer of some bytes, or some bytes of padding. -/
inductive Item where
  | uint (size : ℕ)
  | pad (size : ℕ)

def Item.size : Item → ℕ
  | .uint size => size
  | .pad size => size

/-- A format. -/
abbrev Format := List Item

/-- `calcsize`. -/
def Format.size (fmt : Format) : ℕ := (fmt.map Item.size).sum

/-- `pack`; `none` when a value is out of range or their number is wrong. -/
def pack : Format → List ℕ → Option (List UInt8)
  | [], [] => some []
  | [], _ :: _ => none
  | .pad size :: fmt, ns => (pack fmt ns).map (List.replicate size 0 ++ ·)
  | .uint _ :: _, [] => none
  | .uint size :: fmt, n :: ns =>
    if n < 256 ^ size then (pack fmt ns).map (uintBytes size n ++ ·) else none

/-- The integers at the start of a buffer that is long enough. -/
def unpack : Format → List UInt8 → List ℕ
  | [], _ => []
  | .pad size :: fmt, bs => unpack fmt (bs.drop size)
  | .uint size :: fmt, bs => uintOf (bs.take size) :: unpack fmt (bs.drop size)

/-- `unpack_from`, with the buffer from the offset on; `none` when it is too short. -/
def unpackFrom (fmt : Format) (bs : List UInt8) : Option (List ℕ) :=
  if bs.length < fmt.size then none else some (unpack fmt bs)

/-- What is packed has the size of its format. -/
theorem length_of_pack {fmt : Format} {ns : List ℕ} {bs : List UInt8} (h : pack fmt ns = some bs) :
    bs.length = fmt.size := by
  induction fmt generalizing ns bs with
  | nil =>
      cases ns with
      | nil =>
          obtain rfl := Option.some.inj h
          rfl
      | cons n ns => cases h
  | cons item fmt ih =>
      cases item with
      | pad size =>
          obtain ⟨bs', hbs, rfl⟩ := Option.map_eq_some_iff.mp h
          simp [Format.size, Item.size, ih hbs]
      | uint size =>
          cases ns with
          | nil => cases h
          | cons n ns =>
              simp only [pack, Option.ite_none_right_eq_some] at h
              obtain ⟨bs', hbs, rfl⟩ := Option.map_eq_some_iff.mp h.2
              simp [Format.size, Item.size, ih hbs]

/-- What was packed is unpacked again, whatever follows. -/
theorem unpack_of_pack {fmt : Format} {ns : List ℕ} {bs : List UInt8} (h : pack fmt ns = some bs)
    (rest : List UInt8) : unpack fmt (bs ++ rest) = ns := by
  induction fmt generalizing ns bs with
  | nil =>
      cases ns with
      | nil => rfl
      | cons n ns => cases h
  | cons item fmt ih =>
      cases item with
      | pad size =>
          obtain ⟨bs', hbs, rfl⟩ := Option.map_eq_some_iff.mp h
          rw [unpack, List.append_assoc, List.drop_left' (List.length_replicate ..)]
          exact ih hbs
      | uint size =>
          cases ns with
          | nil => cases h
          | cons n ns =>
              simp only [pack, Option.ite_none_right_eq_some] at h
              obtain ⟨bs', hbs, rfl⟩ := Option.map_eq_some_iff.mp h.2
              rw [unpack, List.append_assoc, List.drop_left' (length_uintBytes size n),
                List.take_left' (length_uintBytes size n), uintOf_uintBytes h.1, ih hbs]

/-- What was packed is unpacked again, whatever follows it. -/
theorem unpackFrom_of_pack {fmt : Format} {ns : List ℕ} {bs : List UInt8}
    (h : pack fmt ns = some bs) (rest : List UInt8) : unpackFrom fmt (bs ++ rest) = some ns := by
  rw [unpackFrom, List.length_append, length_of_pack h, if_neg (by omega), unpack_of_pack h]

/-- Values in range, as many as the format has integers, can be packed. -/
def Fits : Format → List ℕ → Prop
  | [], ns => ns = []
  | .pad _ :: fmt, ns => Fits fmt ns
  | .uint _ :: _, [] => False
  | .uint size :: fmt, n :: ns => n < 256 ^ size ∧ Fits fmt ns

/-- Numbers that fit are packed. -/
theorem exists_pack {fmt : Format} {ns : List ℕ} (h : Fits fmt ns) :
    ∃ bs, pack fmt ns = some bs := by
  induction fmt generalizing ns with
  | nil =>
      obtain rfl : ns = [] := h
      exact ⟨[], rfl⟩
  | cons item fmt ih =>
      cases item with
      | pad size =>
          obtain ⟨bs, hbs⟩ : ∃ bs, pack fmt ns = some bs := ih h
          exact ⟨_, by rw [pack, hbs, Option.map_some]⟩
      | uint size =>
          cases ns with
          | nil => cases h
          | cons n ns =>
              obtain ⟨bs, hbs⟩ := ih h.2
              exact ⟨_, by rw [pack, if_pos h.1, hbs, Option.map_some]⟩

/-! ## Elements -/

section Elements

variable {α : Type*} {write : α → Option (List UInt8)} {read : List UInt8 → Option (α × ℕ)}

/-- Elements one behind the other; `none` when one of them cannot be written. -/
def packAll (write : α → Option (List UInt8)) : List α → Option (List UInt8)
  | [] => some []
  | a :: as => (write a).bind fun bs => (packAll write as).map (bs ++ ·)

/-- `while length > 0`: read elements, each of which says how long it is. The fuel is enough unless
an element is of length 0, with which the loop does not end. -/
def unpackAll (read : List UInt8 → Option (α × ℕ)) : ℕ → ℕ → List UInt8 → Option (List α)
  | _, 0, _ => some []
  | 0, _ + 1, _ => none
  | fuel + 1, length + 1, bs =>
    (read bs).bind fun r =>
      (unpackAll read fuel (length + 1 - r.2) (bs.drop r.2)).map (r.1 :: ·)

/-- What is written of an element is read back, and found to be as long as it is. -/
def ReadsBack (write : α → Option (List UInt8)) (read : List UInt8 → Option (α × ℕ)) (a : α) :
    Prop :=
  ∀ bs, write a = some bs → bs ≠ [] ∧ ∀ rest, read (bs ++ rest) = some (a, bs.length)

/-- Records are packed one after the other. -/
theorem packAll_cons_eq_some {a : α} {as : List α} {bs : List UInt8}
    (h : packAll write (a :: as) = some bs) :
    ∃ first others, write a = some first ∧ packAll write as = some others ∧
      bs = first ++ others := by
  obtain ⟨first, hfirst, hrest⟩ := Option.bind_eq_some_iff.mp h
  obtain ⟨others, hothers, rfl⟩ := Option.map_eq_some_iff.mp hrest
  exact ⟨first, others, hfirst, hothers, rfl⟩

/-- Elements that are read back one by one are read back together. -/
theorem unpackAll_of_packAll {as : List α} {bs : List UInt8}
    (has : ∀ a ∈ as, ReadsBack write read a) (h : packAll write as = some bs) {fuel : ℕ}
    (hfuel : bs.length ≤ fuel) (rest : List UInt8) :
    unpackAll read fuel bs.length (bs ++ rest) = some as := by
  induction as generalizing bs fuel with
  | nil =>
      obtain rfl := Option.some.inj h
      cases fuel <;> rfl
  | cons a as ih =>
      obtain ⟨first, others, hfirst, hothers, rfl⟩ := packAll_cons_eq_some h
      obtain ⟨hne, hread⟩ := has a List.mem_cons_self first hfirst
      have hpos := List.length_pos_iff.mpr hne
      rw [List.length_append] at hfuel
      -- an element that was written is not empty, so there is fuel for it
      obtain ⟨fuel, rfl⟩ := Nat.exists_eq_succ_of_ne_zero (show fuel ≠ 0 by omega)
      obtain ⟨length, hlength⟩ :=
        Nat.exists_eq_succ_of_ne_zero (show (first ++ others).length ≠ 0 by simp [hne])
      have hothersLen : length + 1 - first.length = others.length := by
        rw [List.length_append] at hlength
        omega
      rw [hlength, unpackAll, List.append_assoc, hread, Option.bind_some, hothersLen,
        List.drop_left, ih (fun a' ha' => has a' (List.mem_cons_of_mem _ ha')) hothers (by omega),
        Option.map_some]

/-- A list is packed if each of its records is. -/
theorem exists_packAll {as : List α} (h : ∀ a ∈ as, ∃ bs, write a = some bs) :
    ∃ bs, packAll write as = some bs := by
  induction as with
  | nil => exact ⟨[], rfl⟩
  | cons a as ih =>
      obtain ⟨first, hfirst⟩ := h a List.mem_cons_self
      obtain ⟨others, hothers⟩ := ih fun a' ha' => h a' (List.mem_cons_of_mem _ ha')
      exact ⟨first ++ others, by rw [packAll, hfirst, Option.bind_some, hothers, Option.map_some]⟩

/-- The bytes of elements that are all as long as each other. -/
theorem length_packAll {as : List α} {bs : List UInt8} {n : ℕ} (h : packAll write as = some bs)
    (hlen : ∀ a ∈ as, ∀ bs, write a = some bs → bs.length = n) : bs.length = as.length * n := by
  induction as generalizing bs with
  | nil =>
      obtain rfl := Option.some.inj h
      exact (Nat.zero_mul n).symm
  | cons a as ih =>
      obtain ⟨first, others, hfirst, hothers, rfl⟩ := packAll_cons_eq_some h
      rw [List.length_append, hlen a List.mem_cons_self first hfirst,
        ih hothers fun a' ha' => hlen a' (List.mem_cons_of_mem _ ha'), List.length_cons,
        Nat.succ_mul, Nat.add_comm]

/-- The bytes of elements whose lengths are bounded. -/
theorem length_packAll_le {as : List α} {bs : List UInt8} {n : ℕ} (h : packAll write as = some bs)
    (hlen : ∀ a ∈ as, ∀ bs, write a = some bs → bs.length ≤ n) : bs.length ≤ as.length * n := by
  induction as generalizing bs with
  | nil =>
      obtain rfl := Option.some.inj h
      exact Nat.zero_le _
  | cons a as ih =>
      obtain ⟨first, others, hfirst, hothers, rfl⟩ := packAll_cons_eq_some h
      have hhead := hlen a List.mem_cons_self first hfirst
      have htail := ih hothers fun a' ha' => hlen a' (List.mem_cons_of_mem _ ha')
      rw [List.length_append, List.length_cons, Nat.succ_mul]
      omega

/-- Every element was read from somewhere. -/
theorem exists_read_of_unpackAll {fuel length : ℕ} {bs : List UInt8} {as : List α}
    (h : unpackAll read fuel length bs = some as) {a : α} (ha : a ∈ as) :
    ∃ bs n, read bs = some (a, n) := by
  induction fuel generalizing length bs as with
  | zero =>
      cases length with
      | zero =>
          obtain rfl := Option.some.inj h
          exact absurd ha List.not_mem_nil
      | succ length => cases h
  | succ fuel ih =>
      cases length with
      | zero =>
          obtain rfl := Option.some.inj h
          exact absurd ha List.not_mem_nil
      | succ length =>
          obtain ⟨r, hr, hrest⟩ := Option.bind_eq_some_iff.mp h
          obtain ⟨others, hothers, rfl⟩ := Option.map_eq_some_iff.mp hrest
          rcases List.mem_cons.mp ha with rfl | ha
          · exact ⟨bs, r.2, hr⟩
          · exact ih hothers ha

end Elements

end Struct
