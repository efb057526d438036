/-
  Machine words: bit fields, single-bit masks and two-limb division.

  * `extract` and `deposit` read and replace the field of `length` bits at
    `start`, by shifts and masks; `getLsbD_extract` and `getLsbD_deposit` say
    which bits they produce;
  * `bitSet` is the test of a word against a one-bit mask;
  * `two_limb_div`: dividing a product limb by limb, most significant limb
    first, gives the quotient.
-/
import Mathlib.Data.Nat.Basic
import Mathlib.Logic.Function.Basic
import Mathlib.Tactic.Common
import Mathlib.Tactic.NormNum
import Mathlib.Tactic.Ring

namespace Word

variable {w : ℕ}

/-! ## Fields -/

/-- The field of `length` bits of `v` at `start`, moved to bit `0`. -/
def extract (v : BitVec w) (start length : ℕ) : BitVec w :=
  (v >>> start) &&& (BitVec.allOnes w >>> (w - length))

/-- `v` with the field of `length` bits at `start` replaced by the low bits of
    `f`. -/
def deposit (v : BitVec w) (start length : ℕ) (f : BitVec w) : BitVec w :=
  let mask := (BitVec.allOnes w >>> (w - length)) <<< start
  (v &&& ~~~mask) ||| ((f <<< start) &&& mask)

theorem getLsbD_extract (v : BitVec w) {start length : ℕ} (h : start + length ≤ w) (i : ℕ) :
    (extract v start length).getLsbD i = (decide (i < length) && v.getLsbD (start + i)) := by
  simp only [extract, BitVec.getLsbD_and, BitVec.getLsbD_ushiftRight, BitVec.getLsbD_allOnes]
  rw [Bool.and_comm]
  congr 1
  simp only [decide_eq_decide]; omega

theorem getLsbD_deposit (v f : BitVec w) {start length : ℕ} (h : start + length ≤ w) {i : ℕ}
    (hi : i < w) : (deposit v start length f).getLsbD i =
      if start ≤ i ∧ i < start + length then f.getLsbD (i - start) else v.getLsbD i := by
  have hmask : decide (w - length + (i - start) < w) = decide (i - start < length) := by
    simp only [decide_eq_decide]; omega
  simp only [deposit, BitVec.getLsbD_or, BitVec.getLsbD_and, BitVec.getLsbD_not,
    BitVec.getLsbD_shiftLeft, BitVec.getLsbD_ushiftRight, BitVec.getLsbD_allOnes, hi, decide_true,
    Bool.true_and, hmask]
  by_cases h₁ : i < start
  · rw [if_neg (by omega)]; simp [h₁]
  · by_cases h₂ : i - start < length
    · rw [if_pos (by omega)]; simp [h₁, h₂]
    · rw [if_neg (by omega)]; simp [h₂]

/-- A field, as a number. -/
theorem toNat_extract (v : BitVec w) {start length : ℕ} (h : start + length ≤ w) :
    (extract v start length).toNat = v.toNat / 2 ^ start % 2 ^ length := by
  apply Nat.eq_of_testBit_eq
  intro i
  rw [Nat.testBit_mod_two_pow, Nat.testBit_div_two_pow, Nat.add_comm]
  exact getLsbD_extract v h i

theorem toNat_extract_lt (v : BitVec w) (start : ℕ) {length : ℕ} (h : length ≤ w) :
    (extract v start length).toNat < 2 ^ length := by
  have hpow : 2 ^ (w - length) * 2 ^ length = 2 ^ w := by rw [← pow_add]; congr 1; omega
  have hmask : (2 ^ w - 1) / 2 ^ (w - length) < 2 ^ length := by
    apply Nat.div_lt_of_lt_mul
    rw [hpow]; exact Nat.sub_lt (Nat.two_pow_pos w) Nat.one_pos
  rw [extract, BitVec.toNat_and, BitVec.toNat_ushiftRight (BitVec.allOnes w), BitVec.toNat_allOnes,
    Nat.shiftRight_eq_div_pow (2 ^ w - 1)]
  exact Nat.lt_of_le_of_lt Nat.and_le_right hmask

/-- A field selected by a mask is at most the mask. -/
theorem toNat_and_shiftRight_le (v m : BitVec w) (k : ℕ) :
    ((v &&& m) >>> k).toNat ≤ m.toNat / 2 ^ k := by
  rw [BitVec.toNat_ushiftRight, BitVec.toNat_and, Nat.shiftRight_eq_div_pow]
  exact Nat.div_le_div_right Nat.and_le_right

/-- A field selected by its mask, as a number. -/
theorem toNat_and_shiftRight (v m : BitVec w) {k n : ℕ} (hm : m.toNat / 2 ^ k = 2 ^ n - 1) :
    ((v &&& m) >>> k).toNat = v.toNat / 2 ^ k % 2 ^ n := by
  rw [BitVec.toNat_ushiftRight, BitVec.toNat_and, Nat.shiftRight_and_distrib,
    Nat.shiftRight_eq_div_pow, Nat.shiftRight_eq_div_pow, hm, Nat.and_two_pow_sub_one_eq_mod]

/-- A field selected by its mask and left in place. -/
theorem toNat_and_mask (v m : BitVec w) {k n : ℕ} (hm : m.toNat = (2 ^ n - 1) * 2 ^ k) :
    (v &&& m).toNat = v.toNat / 2 ^ k % 2 ^ n * 2 ^ k := by
  rw [BitVec.toNat_and, hm, ← Nat.and_two_pow_sub_one_eq_mod]
  apply Nat.eq_of_testBit_eq
  intro i
  simp only [Nat.testBit_and, Nat.testBit_mul_two_pow, Nat.testBit_div_two_pow]
  by_cases h : k ≤ i
  · simp [h, Nat.sub_add_cancel h]
  · simp [h]

/-- Fields that do not overlap add up. -/
theorem or_eq_add {a b k : ℕ} (ha : 2 ^ k ∣ a) (hb : b < 2 ^ k) : a ||| b = a + b := by
  obtain ⟨q, rfl⟩ := ha
  rw [Nat.mul_comm, ← Nat.shiftLeft_eq, Nat.shiftLeft_add_eq_or_of_lt hb]

/-- The field at `k` of a sum of fields. -/
theorem field_eq {N A f B k n : ℕ} (hN : N = B + (f + A * 2 ^ n) * 2 ^ k) (hf : f < 2 ^ n)
    (hB : B < 2 ^ k) : N / 2 ^ k % 2 ^ n = f := by
  rw [hN, Nat.add_mul_div_right _ _ (Nat.two_pow_pos k), Nat.div_eq_of_lt hB, Nat.zero_add,
    Nat.add_mul_mod_self_right, Nat.mod_eq_of_lt hf]

/-- The low 16 bits of a word. -/
theorem getLsbD_and_ffff (hw : 16 ≤ w) (x : BitVec w) {i : ℕ} (hi : i < 16) :
    (x &&& BitVec.ofNat w 0xffff).getLsbD i = x.getLsbD i := by
  have hbit : (0xffff : ℕ).testBit i = true := by
    rw [show (0xffff : ℕ) = 2 ^ 16 - 1 from rfl, Nat.testBit_two_pow_sub_one, decide_eq_true hi]
  rw [BitVec.getLsbD_and, BitVec.getLsbD_ofNat, hbit, decide_eq_true (show i < w by omega)]
  simp

/-- A 32-bit word passed through a 64-bit one. -/
theorem setWidth_setWidth_32 (x : BitVec 32) : (x.setWidth 64).setWidth 32 = x := by
  rw [BitVec.setWidth_setWidth_of_le x (by decide), BitVec.setWidth_eq]

/-- The low bits of a field at the bottom of a word. -/
theorem setWidth_inj {w' : ℕ} (hw : w ≤ w') {x y : BitVec w} :
    x.setWidth w' = y.setWidth w' ↔ x = y := by
  constructor
  · intro h
    have hx := congrArg (BitVec.setWidth w) h
    rwa [BitVec.setWidth_setWidth_of_le x hw, BitVec.setWidth_setWidth_of_le y hw,
      BitVec.setWidth_eq, BitVec.setWidth_eq] at hx
  · rintro rfl
    rfl

theorem setWidth_extract_zero (v : BitVec w) {n length : ℕ} (hn : n ≤ length) (hw : length ≤ w) :
    (extract v 0 length).setWidth n = v.setWidth n := by
  apply BitVec.eq_of_getLsbD_eq
  intro i hi
  rw [BitVec.getLsbD_setWidth, BitVec.getLsbD_setWidth, getLsbD_extract v (by omega), Nat.zero_add,
    decide_eq_true (show i < length by omega), Bool.true_and]

/-- A field of one bit, as a number. -/
theorem extract_one (v : BitVec w) {start : ℕ} (h : start < w) :
    extract v start 1 = if v.getLsbD start then 1#w else 0#w := by
  apply BitVec.eq_of_getLsbD_eq
  intro i hi
  rw [getLsbD_extract v (by omega)]
  by_cases hi0 : i = 0
  · subst hi0; cases v.getLsbD start <;> simp; omega
  · rw [decide_eq_false (by omega)]
    cases v.getLsbD start <;> simp [BitVec.getLsbD_one, hi0]

theorem extract_one_ne_zero (v : BitVec w) {start : ℕ} (h : start < w) :
    extract v start 1 ≠ 0#w ↔ v.getLsbD start = true := by
  have hone : 1#w ≠ 0#w := mt BitVec.one_eq_zero_iff.1 (by omega)
  rw [extract_one v h]
  cases v.getLsbD start <;> simp [hone]

theorem deposit_one (v : BitVec w) {start : ℕ} (h : start < w) (b : Bool) {i : ℕ} (hi : i < w) :
    (deposit v start 1 (if b then 1#w else 0#w)).getLsbD i =
      if i = start then b else v.getLsbD i := by
  rw [getLsbD_deposit v _ (by omega) hi]
  by_cases hs : i = start
  · subst hs; rw [if_pos ⟨le_rfl, by omega⟩, if_pos rfl]
    cases b <;> simp; omega
  · rw [if_neg (by omega), if_neg hs]

/-- Replacing one bit, as an update of the bits. -/
theorem getLsbD_deposit_one (v : BitVec w) {start : ℕ} (h : start < w) (b : Bool) :
    (deposit v start 1 (if b then 1#w else 0#w)).getLsbD = Function.update v.getLsbD start b := by
  refine funext fun i => ?_
  rw [Function.update_apply]
  by_cases hi : i < w
  · exact deposit_one v h b hi
  · rw [BitVec.getLsbD_of_ge _ i (by omega), BitVec.getLsbD_of_ge v i (by omega),
      if_neg (by omega)]

/-! ## One-bit masks -/

/-- The test `v & mask` of a word against the mask of bit `b`. -/
def bitSet (v : BitVec w) (b : ℕ) : Bool := (v &&& (1#w <<< b)) != 0#w

theorem bitSet_eq (v : BitVec w) {b : ℕ} (hb : b < w) : bitSet v b = v.getLsbD b := by
  rw [bitSet, ← BitVec.twoPow_eq, BitVec.and_twoPow]
  cases hv : v.getLsbD b
  · simp
  · simp only [if_true, bne_iff_ne, ne_eq]
    intro h0
    have := congrArg (fun x => x.getLsbD b) h0
    simp [hb] at this

/-- Clearing bits that a mask does not have. -/
theorem not_and_of_and_eq_zero {w : ℕ} {m e : BitVec w} (h : m &&& e = 0#w) : ~~~ e &&& m = m := by
  refine BitVec.eq_of_getLsbD_eq fun i hi => ?_
  have hbit : (m.getLsbD i && e.getLsbD i) = false := by
    rw [← BitVec.getLsbD_and, h, BitVec.getLsbD_zero]
  rw [BitVec.getLsbD_and, BitVec.getLsbD_not]
  cases hm : m.getLsbD i <;> simp_all

/-- Setting bits that a mask does not have. -/
theorem or_and_of_and_eq_zero {w : ℕ} {x e m : BitVec w} (h : e &&& m = 0#w) : (x ||| e) &&& m = x &&& m := by
  refine BitVec.eq_of_getLsbD_eq fun i hi => ?_
  have hbit : (e.getLsbD i && m.getLsbD i) = false := by
    rw [← BitVec.getLsbD_and, h, BitVec.getLsbD_zero]
  simp only [BitVec.getLsbD_and, BitVec.getLsbD_or]
  cases hm : m.getLsbD i <;> simp_all

theorem eq_of_getLsbD_twoPow {w b i : ℕ} (h : (BitVec.twoPow w b).getLsbD i = true) : i = b := by
  rw [BitVec.getLsbD_twoPow] at h
  simp at h
  omega

/-- Clearing a bit that is clear. -/
theorem and_not_twoPow {w : ℕ} {x : BitVec w} {b : ℕ} (h : x.getLsbD b = false) :
    x &&& ~~~ BitVec.twoPow w b = x := by
  refine BitVec.eq_of_getLsbD_eq fun i hi => ?_
  simp only [BitVec.getLsbD_and, BitVec.getLsbD_not]
  cases hm : (BitVec.twoPow w b).getLsbD i with
  | false => simp [hi]
  | true =>
    rw [eq_of_getLsbD_twoPow hm, h]
    simp

/-- A bit that is set can be subtracted and set again. -/
theorem sub_twoPow_or {w : ℕ} {x : BitVec w} {b : ℕ} (h : x.getLsbD b = true) :
    x - BitVec.twoPow w b ||| BitVec.twoPow w b = x := by
  have hsplit : x &&& ~~~ BitVec.twoPow w b ||| BitVec.twoPow w b = x := by
    refine BitVec.eq_of_getLsbD_eq fun i hi => ?_
    simp only [BitVec.getLsbD_or, BitVec.getLsbD_and, BitVec.getLsbD_not]
    cases hm : (BitVec.twoPow w b).getLsbD i with
    | false => simp [hi]
    | true =>
      rw [eq_of_getLsbD_twoPow hm, h]
      simp
  have hdisj : (x &&& ~~~ BitVec.twoPow w b) &&& BitVec.twoPow w b = 0#w := by
    rw [BitVec.and_assoc, BitVec.not_and_self]
    exact BitVec.and_zero
  have hadd : x = (x &&& ~~~ BitVec.twoPow w b) + BitVec.twoPow w b := by
    rw [BitVec.add_eq_or_of_and_eq_zero _ _ hdisj, hsplit]
  have hsub : x - BitVec.twoPow w b = x &&& ~~~ BitVec.twoPow w b := by
    rw [BitVec.sub_eq_iff_eq_add]
    exact hadd
  rw [hsub, hsplit]

theorem and_twoPow_ne_zero (v : BitVec w) {b : ℕ} (hb : b < w) :
    v &&& BitVec.twoPow w b ≠ 0#w ↔ v.getLsbD b = true := by
  rw [← bitSet_eq v hb, bitSet, bne_iff_ne, BitVec.twoPow_eq]

theorem getLsbD_flag (c : Bool) (n i : ℕ) :
    (if c then 1#w <<< n else 0#w).getLsbD i = (c && decide (n < w) && decide (i = n)) := by
  cases c with
  | false => simp
  | true =>
    simp only [if_true, BitVec.getLsbD_shiftLeft, BitVec.getLsbD_one]
    grind

/-- `v` with bit `b` replaced. -/
def setBit (v : BitVec w) (b : ℕ) (x : Bool) : BitVec w :=
  (v &&& ~~~(1#w <<< b)) ||| ((if x then 1#w else 0#w) <<< b)

theorem getLsbD_setBit (v : BitVec w) (b : ℕ) (x : Bool) {i : ℕ} (hi : i < w) :
    (setBit v b x).getLsbD i = if i = b then x else v.getLsbD i := by
  have hw : 0 < w := by omega
  simp only [setBit, BitVec.getLsbD_or, BitVec.getLsbD_and, BitVec.getLsbD_not,
    BitVec.getLsbD_shiftLeft, hi, decide_true, Bool.true_and]
  rcases Nat.lt_trichotomy i b with h | h | h
  · rw [if_neg (show ¬ i = b by omega)]; simp [h]
  · subst h; cases x <;> simp [hw]
  · rw [if_neg (show ¬ i = b by omega)]
    have hne : i - b ≠ 0 := by omega
    cases x <;> simp [BitVec.getLsbD_one, hne]

/-- A loop that replaces the bits `l`. -/
theorem getLsbD_foldl_setBit (f : ℕ → Bool) {i : ℕ} (hi : i < w) (l : List ℕ) :
    ∀ v : BitVec w, (l.foldl (fun v b => setBit v b (f b)) v).getLsbD i =
      if i ∈ l then f i else v.getLsbD i := by
  induction l with
  | nil => intro v; rfl
  | cons b l ih =>
    intro v
    rw [List.foldl_cons, ih, getLsbD_setBit v b (f b) hi]
    by_cases hl : i ∈ l
    · simp [hl]
    · by_cases hb : i = b
      · subst hb; simp [hl]
      · simp [hl, hb]

/-! ## Halves -/

/-- One half of a 32-bit word. -/
inductive Half where
  | low
  | high

namespace Half

/-- The first bit of the half. -/
def start : Half → ℕ
  | low => 0
  | high => 16

/-- The address of the half, in bytes from the word. -/
def offset : Half → ℕ
  | low => 0
  | high => 2

def other : Half → Half
  | low => high
  | high => low

/-- The half of `v`. -/
def of (h : Half) (v : BitVec 32) : BitVec 16 := v.extractLsb' h.start 16

theorem getLsbD_of (h : Half) (v : BitVec 32) {i : ℕ} (hi : i < 16) :
    (h.of v).getLsbD i = v.getLsbD (h.start + i) := by
  rw [of, BitVec.getLsbD_extractLsb', decide_eq_true hi, Bool.true_and]

/-- A word is determined by its halves, one and the other. -/
theorem ext_of (h : Half) {v w : BitVec 32} (hh : h.of v = h.of w) (ho : h.other.of v = h.other.of w) :
    v = w := by
  apply BitVec.eq_of_getLsbD_eq
  intro i hi
  have hbit : ∀ h : Half, h.of v = h.of w → h.start ≤ i → i < h.start + 16 → v.getLsbD i = w.getLsbD i := by
    intro h hh hle hlt
    have hget := congrArg (fun x => x.getLsbD (i - h.start)) hh
    simp only [h.getLsbD_of _ (show i - h.start < 16 by omega)] at hget
    rwa [show h.start + (i - h.start) = i by omega] at hget
  cases h with
  | low =>
    rcases Nat.lt_or_ge i 16 with hlt | hge
    · exact hbit low hh (Nat.zero_le i) hlt
    · exact hbit high ho hge hi
  | high =>
    rcases Nat.lt_or_ge i 16 with hlt | hge
    · exact hbit low ho (Nat.zero_le i) hlt
    · exact hbit high hh hge hi

/-- A half, as a field of a longer word. -/
theorem extract_eq (h : Half) (v : BitVec 32) :
    extract (v.setWidth 64) h.start 16 = (h.of v).setWidth 64 := by
  have hstart : h.start ≤ 16 := by cases h <;> decide
  apply BitVec.eq_of_getLsbD_eq
  intro i hi
  rw [getLsbD_extract _ (by omega), BitVec.getLsbD_setWidth, BitVec.getLsbD_setWidth, of,
    BitVec.getLsbD_extractLsb', decide_eq_true hi, Bool.true_and]
  by_cases hlt : i < 16
  · rw [decide_eq_true (show h.start + i < 64 by omega), Bool.true_and]
  · simp [hlt]

theorem of_and (h : Half) (v w : BitVec 32) : h.of (v &&& w) = h.of v &&& h.of w := by
  apply BitVec.eq_of_getLsbD_eq
  intro i hi
  rw [BitVec.getLsbD_and, getLsbD_of _ _ hi, getLsbD_of _ _ hi, getLsbD_of _ _ hi, BitVec.getLsbD_and]

theorem low_of_setWidth (x : BitVec 16) : low.of (x.setWidth 32) = x := by
  apply BitVec.eq_of_getLsbD_eq
  intro i hi
  rw [getLsbD_of _ _ hi, BitVec.getLsbD_setWidth, start, Nat.zero_add,
    decide_eq_true (show i < 32 by omega), Bool.true_and]

theorem high_of_setWidth (x : BitVec 16) : high.of (x.setWidth 32) = 0 := by
  apply BitVec.eq_of_getLsbD_eq
  intro i hi
  rw [getLsbD_of _ _ hi, BitVec.getLsbD_setWidth, start, BitVec.getLsbD_of_ge x _ (by omega),
    Bool.and_false]
  exact BitVec.getLsbD_zero.symm

/-- `v` with the half replaced by `x`, through a longer word. -/
def put (h : Half) (v : BitVec 32) (x : BitVec 16) : BitVec 32 :=
  (deposit (v.setWidth 64) h.start 16 (x.setWidth 64)).setWidth 32

theorem getLsbD_put (h : Half) (v : BitVec 32) (x : BitVec 16) {i : ℕ} (hi : i < 32) :
    (h.put v x).getLsbD i =
      if h.start ≤ i ∧ i < h.start + 16 then x.getLsbD (i - h.start) else v.getLsbD i := by
  have hstart : h.start ≤ 16 := by cases h <;> decide
  rw [put, BitVec.getLsbD_setWidth, decide_eq_true hi, Bool.true_and,
    getLsbD_deposit _ _ (by omega) (by omega)]
  simp only [BitVec.getLsbD_setWidth]
  rw [decide_eq_true (show i - h.start < 64 by omega), decide_eq_true (show i < 64 by omega),
    Bool.true_and, Bool.true_and]

theorem of_put (h : Half) (v : BitVec 32) (x : BitVec 16) : h.of (h.put v x) = x := by
  have hstart : h.start ≤ 16 := by cases h <;> decide
  apply BitVec.eq_of_getLsbD_eq
  intro i hi
  rw [getLsbD_of _ _ hi, getLsbD_put h v x (by omega), if_pos (by omega), Nat.add_sub_cancel_left]

theorem other_of_put (h : Half) (v : BitVec 32) (x : BitVec 16) :
    h.other.of (h.put v x) = h.other.of v := by
  have hdisj : ∀ i < 16, ¬ (h.start ≤ h.other.start + i ∧ h.other.start + i < h.start + 16) ∧
      h.other.start + i < 32 := by
    intro i hi
    cases h <;> simp only [start, other] <;> omega
  apply BitVec.eq_of_getLsbD_eq
  intro i hi
  rw [getLsbD_of _ _ hi, getLsbD_of _ _ hi, getLsbD_put h v x (hdisj i hi).2, if_neg (hdisj i hi).1]

theorem other_other (h : Half) : h.other.other = h := by cases h <;> rfl

/-- Both halves replaced one after the other, with the bits outside of `m` dropped each time. -/
theorem put_both (h : Half) (old v m : BitVec 32) :
    h.other.put (h.put old (h.of v) &&& m) (h.other.of v) &&& m = v &&& m := by
  apply ext_of h.other
  · rw [of_and, of_and, of_put]
  · rw [of_and, of_and, other_of_put, of_and, other_other, of_put, BitVec.and_assoc, BitVec.and_self]

end Half

/-! ## Products and limbs -/

/-- A product of two 32-bit words fits in 64 bits, with room for a carry. -/
theorem mul_lt_two_pow_64 {x y : ℕ} (hx : x < 2 ^ 32) (hy : y < 2 ^ 32) :
    x * y + 2 ^ 32 < 2 ^ 64 := by
  calc x * y + 2 ^ 32 ≤ (2 ^ 32 - 1) * (2 ^ 32 - 1) + 2 ^ 32 :=
        Nat.add_le_add_right (Nat.mul_le_mul (by omega) (by omega)) _
    _ < 2 ^ 64 := by norm_num

theorem toNat_mul_32 (x y : BitVec 32) :
    (x.setWidth 64 * y.setWidth 64).toNat = x.toNat * y.toNat := by
  have := mul_lt_two_pow_64 x.isLt y.isLt
  have hx := x.isLt
  have hy := y.isLt
  rw [BitVec.toNat_mul, BitVec.toNat_setWidth, BitVec.toNat_setWidth,
    Nat.mod_eq_of_lt (show x.toNat < 2 ^ 64 by omega),
    Nat.mod_eq_of_lt (show y.toNat < 2 ^ 64 by omega), Nat.mod_eq_of_lt (by omega)]

theorem toNat_and_low32 (x : BitVec 64) : (x &&& 0xffffffff#64).toNat = x.toNat % 2 ^ 32 := by
  rw [BitVec.toNat_and, show (0xffffffff#64 : BitVec 64).toNat = 2 ^ 32 - 1 from rfl,
    Nat.and_two_pow_sub_one_eq_mod]

/-! ## Division by limbs -/

/-- Long division of `h * K + l` by `c`: the quotient of the high limb, then
    the quotient of the remainder with the low limb brought down. -/
theorem two_limb_div (K h l c : ℕ) : (h * K + l) / c = h / c * K + (h % c * K + l) / c := by
  rcases Nat.eq_zero_or_pos c with rfl | hc
  · simp
  · have hK : h * K + l = h % c * K + l + c * (h / c * K) := by
      conv_lhs => rw [← Nat.mod_add_div h c]
      ring
    rw [hK, Nat.add_mul_div_left _ _ hc, Nat.add_comm]

/-- The low limb of the quotient does not carry. -/
theorem two_limb_low_lt {K h l c : ℕ} (hc : 0 < c) (hl : l < K) : (h % c * K + l) / c < K := by
  rw [Nat.div_lt_iff_lt_mul hc]
  have hm : h % c + 1 ≤ c := Nat.mod_lt h hc
  calc h % c * K + l < h % c * K + K := by omega
    _ = (h % c + 1) * K := by ring
    _ ≤ c * K := Nat.mul_le_mul_right K hm
    _ = K * c := Nat.mul_comm c K

end Word
