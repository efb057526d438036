/-
  Cyclic redundancy checks, most significant bit first.

  The bits of a message enter the remainder one by one (`feed`).  A shift of the
  remainder is linear in the exclusive or (`shift_xor`), so the bits that enter in a
  row can be placed at the top of the remainder first (`foldl_feed`), and eight
  shifts are those of the top byte, and the rest moved up (`iterate_shift_byte`).

  `foldl_feed_byte` is what table-driven code rests on: if `T` holds eight shifts of
  every byte, a byte of the message takes one access to `T`.
-/
import Mathlib.Data.BitVec
import Mathlib.Logic.Function.Iterate

namespace Crc

variable {w n : ℕ} (poly : BitVec w)

/-- A bit of the message enters: the remainder is shifted, and the polynomial
    subtracted if the bit shifted out is not the bit of the message. -/
def feed (c : BitVec w) (b : Bool) : BitVec w :=
  if c.msb ^^ b then (c <<< 1) ^^^ poly else c <<< 1

/-- The bits of a word, most significant first. -/
def msbFirst (v : BitVec n) : List Bool := (List.range n).map v.getMsbD

/-- The shift of a remainder. -/
def shift (c : BitVec w) : BitVec w := feed poly c false

/-- A bit at the top. -/
def top (b : Bool) : BitVec w := if b then BitVec.intMin w else 0

/-- Bits at the top, the first one uppermost. -/
def place : List Bool → BitVec w
  | [] => 0
  | b :: l => top b ^^^ (place l >>> 1)

variable {poly} {c x y : BitVec w} {b : Bool} {l : List Bool}

theorem shift_xor (x y : BitVec w) : shift poly (x ^^^ y) = shift poly x ^^^ shift poly y := by
  unfold shift feed
  simp only [BitVec.msb_xor, BitVec.shiftLeft_xor_distrib, Bool.xor_false]
  cases x.msb <;> cases y.msb
  · rfl
  · exact BitVec.xor_assoc _ _ _
  · simp only [Bool.xor_false, if_true, Bool.false_eq_true, if_false]
    rw [BitVec.xor_assoc, BitVec.xor_comm (y <<< 1), ← BitVec.xor_assoc]
  · simp only [Bool.xor_self, Bool.false_eq_true, if_true, if_false]
    rw [BitVec.xor_assoc (x <<< 1), BitVec.xor_comm poly, BitVec.xor_assoc (y <<< 1),
      BitVec.xor_self, BitVec.xor_zero]

theorem iterate_shift_xor (k : ℕ) : ∀ x y : BitVec w,
    (shift poly)^[k] (x ^^^ y) = (shift poly)^[k] x ^^^ (shift poly)^[k] y := by
  induction k with
  | zero => exact fun x y => rfl
  | succ k ih =>
    intro x y
    simp only [Function.iterate_succ_apply, shift_xor, ih]

/-- Without a bit to shift out, the remainder only moves up. -/
theorem shift_of_msb (h : x.msb = false) : shift poly x = x <<< 1 := by
  simp [shift, feed, h]

/-- A bit of the message may be added before the shift. -/
theorem feed_eq (hw : 0 < w) (c : BitVec w) (b : Bool) : feed poly c b = shift poly (c ^^^ top b) := by
  have htop : (top b : BitVec w).msb = b := by
    cases b
    · exact BitVec.msb_zero
    · simp [top, BitVec.msb_intMin, hw]
  have hshl : (top b : BitVec w) <<< 1 = 0#w := by
    cases b
    · exact BitVec.zero_shiftLeft 1
    · ext i hi
      simp [top, BitVec.intMin, BitVec.getElem_shiftLeft]
      omega
  simp only [shift, feed, BitVec.msb_xor, htop, BitVec.shiftLeft_xor_distrib, hshl, Bool.xor_false,
    BitVec.xor_zero]

/-! ## Bits in a row -/

theorem getMsbD_place (l : List Bool) : ∀ {i : ℕ}, i < w → (place l : BitVec w).getMsbD i = l.getD i false := by
  induction l with
  | nil => intro i _; simp [place]
  | cons b l ih =>
    intro i hi
    have htop : (top b : BitVec w).getMsbD i = (decide (i = 0) && b) := by
      cases b
      · simp [top]
      · simp [top, BitVec.getMsbD_intMin]; omega
    rw [place, BitVec.getMsbD_xor, htop, BitVec.getMsbD_ushiftRight]
    cases i with
    | zero => simp
    | succ i => simp [hi, ih (Nat.lt_of_succ_lt hi)]

/-- Below the bits placed there is nothing. -/
theorem getLsbD_place (h : l.length < w) : (place l : BitVec w).getLsbD 0 = false := by
  rw [BitVec.getLsbD_eq_getMsbD, getMsbD_place l (by omega), List.getD_eq_getElem?_getD,
    List.getElem?_eq_none (by omega)]
  exact Bool.and_false _

theorem place_shift (h : l.length < w) : shift poly (place l >>> 1) = place l := by
  have hmsb : (place l >>> 1 : BitVec w).msb = false := by
    rw [BitVec.msb_eq_getLsbD_last, BitVec.getLsbD_ushiftRight]
    exact BitVec.getLsbD_of_ge _ _ (by omega)
  rw [shift_of_msb hmsb]
  refine BitVec.eq_of_getLsbD_eq fun i hi => ?_
  rw [BitVec.getLsbD_shiftLeft, BitVec.getLsbD_ushiftRight]
  by_cases h0 : i = 0
  · subst h0; rw [getLsbD_place h]; simp
  · simp [hi, h0, show 1 + (i - 1) = i by omega]

/-- **Bits in a row may be placed at the top of the remainder first.** -/
theorem foldl_feed (hl : l.length ≤ w) : ∀ c : BitVec w,
    l.foldl (feed poly) c = (shift poly)^[l.length] (c ^^^ place l) := by
  induction l with
  | nil => intro c; simp [place]
  | cons b l ih =>
    intro c
    rw [List.length_cons] at hl
    rw [List.foldl_cons, ih (by omega), feed_eq (by omega), List.length_cons, Function.iterate_succ_apply,
      place, ← BitVec.xor_assoc, shift_xor (c ^^^ top b), place_shift (by omega)]

/-! ## Bytes -/

/-- A remainder with nothing in its `k` uppermost bits moves up `k` places. -/
theorem iterate_shift_low {k : ℕ} (h : ∀ i < k, x.getMsbD i = false) :
    (shift poly)^[k] x = x <<< k := by
  induction k generalizing x with
  | zero => simp
  | succ k ih =>
    have hmsb : x.msb = false := h 0 (Nat.succ_pos k)
    rw [Function.iterate_succ_apply, shift_of_msb hmsb, ih, ← BitVec.shiftLeft_add, Nat.add_comm]
    intro i hi
    rw [BitVec.getMsbD_shiftLeft]
    exact h (i + 1) (Nat.succ_lt_succ hi)

/-- The byte at the top of `x`. -/
def topByte (x : BitVec w) : BitVec 8 := (x >>> (w - 8)).setWidth 8

/-- The byte `b`, at the top. -/
def atTop (b : BitVec 8) : BitVec w := b.setWidth w <<< (w - 8)

section
variable (hw : 8 ≤ w)
include hw

theorem getMsbD_atTop (b : BitVec 8) (i : ℕ) : (atTop b : BitVec w).getMsbD i = b.getMsbD i := by
  rw [atTop, BitVec.getMsbD_shiftLeft, BitVec.getMsbD_setWidth]
  simp [show i + (w - 8) + 8 - w = i by omega]

theorem getMsbD_topByte (x : BitVec w) {i : ℕ} (hi : i < 8) : (topByte x).getMsbD i = x.getMsbD i := by
  rw [topByte, BitVec.getMsbD_setWidth, BitVec.getMsbD_ushiftRight]
  simp [show 8 ≤ i + w by omega, show i + w - 8 - (w - 8) = i by omega,
    show i + w - 8 < w by omega, show ¬ i + w - 8 < w - 8 by omega]

theorem topByte_atTop (b : BitVec 8) : topByte (atTop b : BitVec w) = b :=
  BitVec.eq_of_getMsbD_eq fun i hi => by rw [getMsbD_topByte hw _ hi, getMsbD_atTop hw]

theorem topByte_xor (x y : BitVec w) : topByte (x ^^^ y) = topByte x ^^^ topByte y :=
  BitVec.eq_of_getMsbD_eq fun i hi => by simp only [getMsbD_topByte hw _ hi, BitVec.getMsbD_xor]

theorem atTop_shiftLeft (b : BitVec 8) : (atTop b : BitVec w) <<< 8 = 0#w := by
  rw [atTop, ← BitVec.shiftLeft_add, show w - 8 + 8 = w by omega]
  exact BitVec.shiftLeft_eq_zero (Nat.le_refl w)

/-- **Eight shifts**: those of the top byte, and the rest moved up. -/
theorem iterate_shift_byte (x : BitVec w) :
    (shift poly)^[8] x = (shift poly)^[8] (atTop (topByte x)) ^^^ (x <<< 8) := by
  have hsplit : x = atTop (topByte x) ^^^ (x ^^^ atTop (topByte x)) := by
    rw [BitVec.xor_comm x, ← BitVec.xor_assoc, BitVec.xor_self, BitVec.zero_xor]
  have hlow : ∀ i < 8, (x ^^^ atTop (topByte x)).getMsbD i = false := by
    intro i hi
    rw [BitVec.getMsbD_xor, getMsbD_atTop hw, getMsbD_topByte hw _ hi, Bool.xor_self]
  conv_lhs => rw [hsplit]
  rw [iterate_shift_xor, iterate_shift_low hlow, BitVec.shiftLeft_xor_distrib, atTop_shiftLeft hw,
    BitVec.xor_zero]

theorem place_msbFirst (b : BitVec 8) : (place (msbFirst b) : BitVec w) = atTop b := by
  refine BitVec.eq_of_getMsbD_eq fun i hi => ?_
  rw [getMsbD_place _ hi, getMsbD_atTop hw, msbFirst]
  by_cases h8 : i < 8
  · simp [h8]
  · rw [BitVec.getMsbD_of_ge b i (not_lt.1 h8)]; simp [h8]

/-- **A byte of the message, by a table** of eight shifts of every byte. -/
theorem foldl_feed_byte {T : BitVec 8 → BitVec w} (hT : ∀ i, T i = (shift poly)^[8] (atTop i))
    (c : BitVec w) (b : BitVec 8) :
    (msbFirst b).foldl (feed poly) c = T (topByte c ^^^ b) ^^^ (c <<< 8) := by
  have hlen : (msbFirst b).length = 8 := by simp [msbFirst]
  rw [foldl_feed (by omega), hlen, place_msbFirst hw, iterate_shift_byte hw, hT, topByte_xor hw,
    topByte_atTop hw, BitVec.shiftLeft_xor_distrib, atTop_shiftLeft hw, BitVec.xor_zero]

end

/-- The upper bits of a word come first. -/
theorem msbFirst_add {m : ℕ} (v : BitVec (m + n)) :
    msbFirst v = msbFirst ((v >>> n).setWidth m) ++ msbFirst (v.setWidth n) := by
  rw [msbFirst, List.range_add, List.map_append, List.map_map]
  congr 1
  · refine List.map_congr_left fun i hi => ?_
    have him := List.mem_range.1 hi
    rw [BitVec.getMsbD_setWidth, BitVec.getMsbD_ushiftRight]
    simp [show i + (m + n) - m - n = i by omega, show i + (m + n) - m < m + n by omega,
      show ¬ i + (m + n) - m < n by omega]
  · refine List.map_congr_left fun i hi => ?_
    rw [BitVec.getMsbD_setWidth]
    simp [show i + (m + n) - n = m + i by omega]

end Crc
