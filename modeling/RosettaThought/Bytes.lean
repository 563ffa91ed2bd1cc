import Mathlib.Data.List.Basic
import Mathlib.Algebra.Group.Nat.Basic
import Mathlib.Algebra.Group.Int

namespace RosettaThought

/-- A Go `[]byte`; `nil` and the empty slice are both `[]`. -/
abbrev Bytes := List UInt8

theorem UInt8.le_iff_toNat_le {a b : UInt8} : a ≤ b ↔ a.toNat ≤ b.toNat := .rfl

theorem UInt8.lt_iff_toNat_lt {a b : UInt8} : a < b ↔ a.toNat < b.toNat := .rfl

theorem UInt8.eq_iff_toNat_eq {a b : UInt8} : a = b ↔ a.toNat = b.toNat :=
  ⟨congrArg _, UInt8.toNat.inj⟩

@[simp] theorem UInt8.size_eq : UInt8.size = 256 := rfl

@[simp] theorem UInt8.toNat_lit (n : Nat) :
    (no_index (OfNat.ofNat n) : UInt8).toNat = n % 256 := rfl

theorem UInt8.toNat_lt (a : UInt8) : a.toNat < 256 := a.toNat_lt_size

@[simp] theorem UInt8.toNat_ofNat_of_lt {n : Nat} (h : n < 256) : (UInt8.ofNat n).toNat = n :=
  Nat.mod_eq_of_lt h

theorem UInt8.toNat_add_mod (a b : UInt8) : (a + b).toNat = (a.toNat + b.toNat) % 256 :=
  BitVec.toNat_add _ _

theorem UInt8.toNat_and (a b : UInt8) : (a &&& b).toNat = a.toNat &&& b.toNat :=
  BitVec.toNat_and _ _

def leToNat : Bytes → Nat
  | [] => 0
  | b :: bs => b.toNat + 256 * leToNat bs

def natToLE : Nat → Nat → Bytes
  | 0, _ => []
  | w + 1, n => UInt8.ofNat (n % 256) :: natToLE w (n / 256)

@[simp] theorem length_natToLE (w n : Nat) : (natToLE w n).length = w := by
  induction w generalizing n <;> simp [natToLE, *]

theorem leToNat_lt (bs : Bytes) : leToNat bs < 256 ^ bs.length := by
  induction bs with
  | nil => simp [leToNat]
  | cons b bs ih =>
    have := UInt8.toNat_lt b
    rw [leToNat, List.length_cons, Nat.pow_succ]
    omega

theorem leToNat_natToLE (w n : Nat) (h : n < 256 ^ w) : leToNat (natToLE w n) = n := by
  induction w generalizing n with
  | zero => simp_all [natToLE, leToNat]
  | succ w ih =>
    rw [Nat.pow_succ] at h
    rw [natToLE, leToNat, ih _ (by omega), UInt8.toNat_ofNat_of_lt (Nat.mod_lt _ (by omega))]
    omega

theorem natToLE_leToNat (bs : Bytes) : natToLE bs.length (leToNat bs) = bs := by
  induction bs with
  | nil => rfl
  | cons b bs ih =>
    have := UInt8.toNat_lt b
    have hdiv : (b.toNat + 256 * leToNat bs) / 256 = leToNat bs := by omega
    have hmod : (b.toNat + 256 * leToNat bs) % 256 = b.toNat := by omega
    simp only [List.length_cons, natToLE, leToNat, hdiv, hmod, ih, List.cons.injEq, and_true]
    exact UInt8.toNat.inj (UInt8.toNat_ofNat_of_lt this)

/-- Go's `copy(dst, src)`: the first `min (len dst) (len src)` bytes of `dst`
replaced by those of `src`. -/
def copyBytes (dst src : Bytes) : Bytes := src.take dst.length ++ dst.drop src.length

@[simp] theorem length_copyBytes (dst src : Bytes) : (copyBytes dst src).length = dst.length := by
  simp only [copyBytes, List.length_append, List.length_take, List.length_drop]
  omega

theorem take_copyBytes {dst src : Bytes} (h : src.length ≤ dst.length) :
    (copyBytes dst src).take src.length = src := by
  simp [copyBytes, List.take_of_length_le h]

theorem copyBytes_of_length {dst src : Bytes} (h : src.length = dst.length) :
    copyBytes dst src = src := by
  simp [copyBytes, List.take_of_length_le h.le, h]

end RosettaThought
