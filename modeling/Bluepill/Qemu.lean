/-
  The parts of QEMU the device models rest on: the ways an emulation stops,
  the bit operations of `qemu/bitops.h`, the deadlines of `qemu-timer.c`, and `muldiv64`
  of `qemu-common.h`.

  The bit operations assert that the field lies in the word; every call in the
  devices passes a field that does.  `BIT(nr)` is `1UL << nr`, which C leaves
  undefined from `nr = 64` on: the value the host gives it there is a parameter
  (`Host`).
-/
import Bluepill.Lib.Run
import Bluepill.Lib.Word

namespace Bluepill

/-- The ways an emulation stops: `hw_error`, a failed `assert`, a division by
    zero, an access outside an array or through a null pointer.  `outOfFuel` is
    not an outcome of the code: it marks a recursion whose depth bound was too
    small. -/
inductive Fault where
  | hwError (msg : String)
  | assertion
  | divByZero
  | outOfBounds
  | nullDeref
  | outOfFuel
  deriving DecidableEq, Repr

/-- `assert`. -/
def assert (p : Prop) [Decidable p] : Except Fault Unit :=
  if p then .ok () else .error .assertion

theorem assert_of {p : Prop} [Decidable p] (h : p) : assert p = .ok () := if_pos h

theorem assert_bind {α : Type} {p : Prop} [Decidable p] {f : Unit → Except Fault α} {x : α} :
    (assert p >>= f) = .ok x ↔ p ∧ f () = .ok x := by
  unfold assert
  split <;> simp_all

/-! ## `qemu/bitops.h` -/

/-- What the host makes of a shift of `1UL` by `64` or more. -/
structure Host where
  shl64 : ℕ → BitVec 64

/-- A host where such shifts give `0`. -/
def zeroHost : Host := ⟨fun _ => 0⟩

/-- `BIT(nr)`. -/
def BIT (host : Host) (nr : ℕ) : BitVec 64 :=
  if nr < 64 then 1#64 <<< nr else host.shl64 nr

/-- `new_value & BIT(bit_pos)`, as a condition. -/
def testBIT (host : Host) (value : BitVec 32) (nr : ℕ) : Bool :=
  (value.setWidth 64 &&& BIT host nr) != 0#64

def extract32 (value : BitVec 32) (start length : ℕ) : BitVec 32 := Word.extract value start length

def extract64 (value : BitVec 64) (start length : ℕ) : BitVec 64 := Word.extract value start length

def deposit32 (value : BitVec 32) (start length : ℕ) (fieldval : BitVec 32) : BitVec 32 :=
  Word.deposit value start length fieldval

def deposit64 (value : BitVec 64) (start length : ℕ) (fieldval : BitVec 64) : BitVec 64 :=
  Word.deposit value start length fieldval

theorem testBIT_eq (host : Host) (v : BitVec 32) {b : ℕ} (hb : b < 32) :
    testBIT host v b = v.getLsbD b := by
  rw [testBIT, BIT, if_pos (by omega)]
  rw [show ((v.setWidth 64 &&& 1#64 <<< b) != 0#64) = Word.bitSet (v.setWidth 64) b from rfl,
    Word.bitSet_eq _ (by omega)]
  simp; omega

/-! ## `qemu-timer.c` -/

/-- The deadline `timer_mod` stores for the time `expireTime`. -/
def timerMod (expireTime : BitVec 64) : BitVec 64 := if expireTime.slt 0 then 0 else expireTime

/-! ## `muldiv64` -/

/-- `muldiv64(a, b, c)`: `a * b / c` in two 32-bit limbs. -/
def muldiv64 (a : BitVec 64) (b c : BitVec 32) : BitVec 64 :=
  let rl := (a.extractLsb' 0 32).setWidth 64 * b.setWidth 64
  let rh := (a.extractLsb' 32 32).setWidth 64 * b.setWidth 64 + (rl >>> 32)
  let high : BitVec 32 := (rh / c.setWidth 64).setWidth 32
  let low : BitVec 32 :=
    ((((rh % c.setWidth 64) <<< 32) + (rl &&& 0xffffffff#64)) / c.setWidth 64).setWidth 32
  high ++ low

/-- The limbs of the product `a * b`. -/
theorem muldiv64_limbs (a : BitVec 64) (b : BitVec 32) :
    let rl := (a.extractLsb' 0 32).setWidth 64 * b.setWidth 64
    let rh := (a.extractLsb' 32 32).setWidth 64 * b.setWidth 64 + (rl >>> 32)
    a.toNat * b.toNat = rh.toNat * 2 ^ 32 + rl.toNat % 2 ^ 32 := by
  intro rl rh
  have hrl : rl.toNat = a.toNat % 2 ^ 32 * b.toNat := by
    simp only [rl, Word.toNat_mul_32, BitVec.extractLsb'_toNat, Nat.shiftRight_zero]
  have hhi : a.toNat / 2 ^ 32 < 2 ^ 32 := by have := a.isLt; omega
  have hcarry := Word.mul_lt_two_pow_64 hhi b.isLt
  have hrh : rh.toNat = a.toNat / 2 ^ 32 * b.toNat + rl.toNat / 2 ^ 32 := by
    simp only [rh, BitVec.toNat_add, Word.toNat_mul_32, BitVec.extractLsb'_toNat,
      BitVec.toNat_ushiftRight, Nat.shiftRight_eq_div_pow]
    have := rl.isLt
    rw [Nat.mod_eq_of_lt hhi, Nat.mod_eq_of_lt (by omega)]
  have hsplit : a.toNat = a.toNat / 2 ^ 32 * 2 ^ 32 + a.toNat % 2 ^ 32 := by omega
  calc a.toNat * b.toNat = a.toNat / 2 ^ 32 * b.toNat * 2 ^ 32 + a.toNat % 2 ^ 32 * b.toNat := by
        conv_lhs => rw [hsplit]
        ring
    _ = rh.toNat * 2 ^ 32 + rl.toNat % 2 ^ 32 := by
        rw [← hrl, hrh, Nat.add_mul]; omega

theorem toNat_muldiv64 (a : BitVec 64) (b c : BitVec 32) (hc : c ≠ 0) :
    (muldiv64 a b c).toNat = a.toNat * b.toNat / c.toNat % 2 ^ 64 := by
  have hc' : 0 < c.toNat := by
    rcases Nat.eq_zero_or_pos c.toNat with h | h
    · exact absurd (BitVec.eq_of_toNat_eq h) hc
    · exact h
  rw [muldiv64_limbs, Word.two_limb_div, muldiv64]
  set rl := (a.extractLsb' 0 32).setWidth 64 * b.setWidth 64
  set rh := (a.extractLsb' 32 32).setWidth 64 * b.setWidth 64 + (rl >>> 32)
  clear_value rh rl
  have hcl := c.isLt
  have hlow := Word.two_limb_low_lt (h := rh.toNat) hc' (Nat.mod_lt rl.toNat (Nat.two_pow_pos 32))
  have hrem : rh.toNat % c.toNat < c.toNat := Nat.mod_lt _ hc'
  have hcw : (c.setWidth 64).toNat = c.toNat := by
    rw [BitVec.toNat_setWidth, Nat.mod_eq_of_lt (by omega)]
  have hlo : (((((rh % c.setWidth 64) <<< 32) + (rl &&& 0xffffffff#64)) /
      c.setWidth 64).setWidth 32).toNat =
        (rh.toNat % c.toNat * 2 ^ 32 + rl.toNat % 2 ^ 32) / c.toNat := by
    simp only [BitVec.toNat_setWidth, BitVec.toNat_udiv, BitVec.toNat_add, BitVec.toNat_umod,
      BitVec.toNat_shiftLeft, Word.toNat_and_low32, hcw, Nat.shiftLeft_eq]
    have hfit : rh.toNat % c.toNat * 2 ^ 32 + rl.toNat % 2 ^ 32 < 2 ^ 64 := by
      have hl : rl.toNat % 2 ^ 32 < 2 ^ 32 := Nat.mod_lt _ (Nat.two_pow_pos 32)
      generalize rl.toNat % 2 ^ 32 = l at hl ⊢
      generalize rh.toNat % c.toNat = r at hrem ⊢
      omega
    rw [Nat.mod_eq_of_lt (Nat.lt_of_le_of_lt (Nat.le_add_right _ _) hfit), Nat.mod_eq_of_lt hfit,
      Nat.mod_eq_of_lt hlow]
  have hhi : ((rh / c.setWidth 64).setWidth 32).toNat = rh.toNat / c.toNat % 2 ^ 32 := by
    simp only [BitVec.toNat_setWidth, BitVec.toNat_udiv, hcw]
  simp only [BitVec.toNat_append, hlo, hhi]
  rw [← Nat.shiftLeft_add_eq_or_of_lt hlow, Nat.shiftLeft_eq]
  omega

/-- The result of `muldiv64` on 32-bit operands, kept in 32 bits. -/
theorem toNat_muldiv64_32 (a b c : BitVec 32) (hc : c ≠ 0) :
    ((muldiv64 (a.setWidth 64) b c).setWidth 32).toNat = a.toNat * b.toNat / c.toNat % 2 ^ 32 := by
  have ha := a.isLt
  rw [BitVec.toNat_setWidth, toNat_muldiv64 _ _ _ hc, BitVec.toNat_setWidth,
    Nat.mod_eq_of_lt (show a.toNat < 2 ^ 64 by omega), Nat.mod_mod_of_dvd _ (by norm_num)]

end Bluepill
