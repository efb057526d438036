/-
  What a countdown timer shows.

  The count of a running timer is computed from the time that is left: it is divided
  by the period, scaled so that as much as possible of its fraction takes part and
  rounded up (`units_le_scaledPeriod`).  So it is never more than the count the timer
  started from (`Within.getCount`).

  `Within b now` says that the counts of a timer are at most `b`, and that it was
  started before `now`; there is one lemma for each operation.  `setLimit` is the one
  that may take a larger limit than it is given.
-/
import Bluepill.Ptimer

namespace Bluepill

namespace Ptimer

variable {s t : Ptimer}

/-! ## The division -/

/-- The period, in units of `2⁻³²` nanoseconds. -/
def units (s : Ptimer) : ℕ := s.period.toNat * 2 ^ 32 + s.periodFrac.toNat

theorem clz64_lt {v : BitVec 64} (hv : v ≠ 0) : clz64 v < 64 := by
  unfold clz64
  rw [if_neg hv]
  omega

/-- A word keeps its bits when it is shifted by no more than its leading zeros. -/
theorem shiftLeft_clz64 {v : BitVec 64} (hv : v ≠ 0) {shift : ℕ} (h : shift ≤ clz64 v) :
    (v.toNat + 1) * 2 ^ shift ≤ 2 ^ 64 := by
  have hpos : v.toNat ≠ 0 := fun h0 => hv (BitVec.eq_of_toNat_eq h0)
  have hlog : v.toNat.log2 < 64 := (Nat.log2_lt hpos).2 v.isLt
  unfold clz64 at h
  rw [if_neg hv] at h
  calc (v.toNat + 1) * 2 ^ shift ≤ 2 ^ (v.toNat.log2 + 1) * 2 ^ shift :=
        Nat.mul_le_mul_right _ (Nat.lt_log2_self)
    _ = 2 ^ (v.toNat.log2 + 1 + shift) := (Nat.pow_add ..).symm
    _ ≤ 2 ^ 64 := Nat.pow_le_pow_right (by decide) (by omega)

theorem toNat_shiftLeft_clz64 {v : BitVec 64} (hv : v ≠ 0) {shift : ℕ} (h : shift ≤ clz64 v) :
    (v <<< shift).toNat = v.toNat * 2 ^ shift := by
  have hfit := shiftLeft_clz64 hv h
  have hpow : 0 < 2 ^ shift := Nat.two_pow_pos shift
  rw [Nat.add_mul, Nat.one_mul] at hfit
  rw [BitVec.toNat_shiftLeft, Nat.shiftLeft_eq, Nat.mod_eq_of_lt (by omega)]

/-- With a large shift the whole fraction takes part. -/
theorem scaledPeriod_large (hp : s.period ≠ 0) {shift : ℕ} (h : shift ≤ clz64 s.period)
    (hlarge : 32 ≤ shift) : (s.scaledPeriod shift).toNat * 2 ^ 32 = s.units * 2 ^ shift := by
  have hlt : shift < 64 := Nat.lt_of_le_of_lt h (clz64_lt hp)
  have hpow : 2 ^ shift = 2 ^ (shift - 32) * 2 ^ 32 := by
    rw [← Nat.pow_add, Nat.sub_add_cancel hlarge]
  have hfrac : s.periodFrac.toNat * 2 ^ (shift - 32) < 2 ^ shift := by
    rw [hpow, Nat.mul_comm (2 ^ (shift - 32))]
    exact Nat.mul_lt_mul_of_pos_right s.periodFrac.isLt (Nat.two_pow_pos _)
  have hfit : (s.periodFrac.setWidth 64 <<< (shift - 32)).toNat =
      s.periodFrac.toNat * 2 ^ (shift - 32) := by
    rw [BitVec.toNat_shiftLeft, Nat.shiftLeft_eq, BitVec.toNat_setWidth_of_le (by decide)]
    exact Nat.mod_eq_of_lt (hfrac.trans (Nat.pow_lt_pow_right (by decide) hlt))
  unfold scaledPeriod
  dsimp only
  rw [if_pos hlarge, BitVec.toNat_or, toNat_shiftLeft_clz64 hp h, hfit,
    Word.or_eq_add (Dvd.intro_left _ rfl) hfrac, hpow, units]
  ring

/-- With a small shift the quotient is rounded up. -/
theorem scaledPeriod_small (hp : s.period ≠ 0) (hle : s.period.toNat ≤ 10 ^ 9) {shift : ℕ}
    (h : shift ≤ clz64 s.period) (hsmall : shift < 32) :
    s.units * 2 ^ shift ≤ (s.scaledPeriod shift).toNat * 2 ^ 32 := by
  have hpow : 2 ^ 32 = 2 ^ (32 - shift) * 2 ^ shift := by
    rw [← Nat.pow_add, Nat.sub_add_cancel hsmall.le]
  -- the bits of the fraction that take part, and the others
  have hhigh : s.periodFrac.toNat / 2 ^ (32 - shift) < 2 ^ shift := by
    apply Nat.div_lt_of_lt_mul
    rw [← hpow]
    exact s.periodFrac.isLt
  have hsplit : s.periodFrac.toNat * 2 ^ shift =
      s.periodFrac.toNat / 2 ^ (32 - shift) * 2 ^ 32 + (s.periodFrac <<< shift).toNat := by
    have hquot : s.periodFrac.toNat * 2 ^ shift / 2 ^ 32 = s.periodFrac.toNat / 2 ^ (32 - shift) := by
      rw [hpow]
      exact Nat.mul_div_mul_right _ _ (Nat.two_pow_pos shift)
    rw [BitVec.toNat_shiftLeft, Nat.shiftLeft_eq, ← hquot]
    exact (Nat.div_add_mod' _ _).symm
  have hdiv : (if shift ≠ 0 then s.period <<< shift ||| (s.periodFrac >>> (32 - shift)).setWidth 64
      else s.period <<< shift).toNat =
      s.period.toNat * 2 ^ shift + s.periodFrac.toNat / 2 ^ (32 - shift) := by
    split
    · rw [BitVec.toNat_or, toNat_shiftLeft_clz64 hp h, BitVec.toNat_setWidth_of_le (by decide),
        BitVec.toNat_ushiftRight, Nat.shiftRight_eq_div_pow,
        Word.or_eq_add (Dvd.intro_left _ rfl) hhigh]
    · rename_i h0
      obtain rfl : shift = 0 := not_not.1 h0
      rw [toNat_shiftLeft_clz64 hp h, Nat.div_eq_of_lt s.periodFrac.isLt, Nat.add_zero]
  have hunits : s.units * 2 ^ shift =
      (s.period.toNat * 2 ^ shift + s.periodFrac.toNat / 2 ^ (32 - shift)) * 2 ^ 32 +
        (s.periodFrac <<< shift).toNat := by
    rw [units, Nat.add_mul, hsplit]
    ring
  have hbound : s.period.toNat * 2 ^ shift + s.periodFrac.toNat / 2 ^ (32 - shift) + 1 < 2 ^ 64 := by
    have hshift : 2 ^ shift ≤ 2 ^ 31 := Nat.pow_le_pow_right (by decide) (by omega)
    have hmul : s.period.toNat * 2 ^ shift ≤ 10 ^ 9 * 2 ^ 31 := Nat.mul_le_mul hle hshift
    omega
  rw [hunits]
  unfold scaledPeriod
  dsimp only
  rw [if_neg (by omega)]
  split
  · have hlow := (s.periodFrac <<< shift).isLt
    rw [BitVec.toNat_add, hdiv, show (1 : BitVec 64).toNat = 1 from rfl, Nat.mod_eq_of_lt hbound]
    omega
  · rename_i hexact
    rw [hdiv, not_not.1 hexact, show (0 : BitVec 32).toNat = 0 from rfl, Nat.add_zero]

/-- **The divisor is not less than the scaled period.** -/
theorem units_le_scaledPeriod (hp : s.period ≠ 0) (hle : s.period.toNat ≤ 10 ^ 9) {shift : ℕ}
    (h : shift ≤ clz64 s.period) : s.units * 2 ^ shift ≤ (s.scaledPeriod shift).toNat * 2 ^ 32 := by
  by_cases hlarge : 32 ≤ shift
  · exact (scaledPeriod_large hp h hlarge).ge
  · exact scaledPeriod_small hp hle h (Nat.lt_of_not_le hlarge)

/-- **The quotient is at most `d`,** if the time that is left is at most `d` periods. -/
theorem quotient_le (hp : s.period ≠ 0) (hle : s.period.toNat ≤ 10 ^ 9) {rem : BitVec 64} {d : ℕ}
    (hrem : rem.toNat * 2 ^ 32 ≤ d * s.units) {shift : ℕ} (h : shift ≤ clz64 s.period) :
    s.scaledPeriod shift ≠ 0 ∧ (rem <<< shift / s.scaledPeriod shift).toNat ≤ d := by
  have hdiv := units_le_scaledPeriod hp hle h
  have hpos : 0 < s.period.toNat := Nat.pos_of_ne_zero fun h0 => hp (BitVec.eq_of_toNat_eq h0)
  have hunits : 0 < s.units * 2 ^ shift := Nat.mul_pos (by unfold units; omega) (Nat.two_pow_pos shift)
  have hshift : (rem <<< shift).toNat ≤ rem.toNat * 2 ^ shift := by
    rw [BitVec.toNat_shiftLeft, Nat.shiftLeft_eq]
    exact Nat.mod_le _ _
  have hmul : (rem <<< shift).toNat * 2 ^ 32 ≤ d * (s.scaledPeriod shift).toNat * 2 ^ 32 :=
    calc (rem <<< shift).toNat * 2 ^ 32 ≤ rem.toNat * 2 ^ shift * 2 ^ 32 := Nat.mul_le_mul_right _ hshift
      _ = rem.toNat * 2 ^ 32 * 2 ^ shift := Nat.mul_right_comm ..
      _ ≤ d * s.units * 2 ^ shift := Nat.mul_le_mul_right _ hrem
      _ = d * (s.units * 2 ^ shift) := Nat.mul_assoc ..
      _ ≤ d * ((s.scaledPeriod shift).toNat * 2 ^ 32) := Nat.mul_le_mul_left _ hdiv
      _ = d * (s.scaledPeriod shift).toNat * 2 ^ 32 := (Nat.mul_assoc ..).symm
  constructor
  · intro h0
    rw [h0] at hdiv
    exact absurd (hunits.trans_le hdiv) (by decide)
  · rw [BitVec.toNat_udiv]
    exact Nat.div_le_of_le_mul (by rw [Nat.mul_comm]; exact Nat.le_of_mul_le_mul_right hmul (by decide))

/-! ## The counts of a timer -/

/-- The counts are at most `b`. -/
structure Bounded (b : ℕ) (s : Ptimer) : Prop where
  limit : s.limit.toNat ≤ b
  delta : s.delta.toNat ≤ b
  period : s.period.toNat ≤ 10 ^ 9

/-- The timer was started before `now`, and ends after `delta` periods. -/
structure Running (now : ℕ) (s : Ptimer) : Prop where
  period : s.period ≠ 0
  armed : s.timer = some s.nextEvent
  started : s.lastEvent.toNat ≤ now
  ends : s.nextEvent.toNat = s.lastEvent.toNat + s.delta.toNat * s.units / 2 ^ 32

structure Within (b now : ℕ) (s : Ptimer) : Prop extends Bounded b s where
  running : s.enabled ≠ .disabled → s.Running now

variable {b now : ℕ}

theorem within_init (b now : ℕ) : init.Within b now where
  limit := Nat.zero_le b
  delta := Nat.zero_le b
  period := Nat.zero_le _
  running := fun h => absurd rfl h

theorem Within.mono (h : s.Within b now) {now' : ℕ} (hle : now ≤ now') : s.Within b now' where
  toBounded := h.toBounded
  running hen :=
    let hr := h.running hen
    ⟨hr.period, hr.armed, hr.started.trans hle, hr.ends⟩

theorem Within.bh (h : s.Within b now) (bh : Bool) : { s with bh }.Within b now where
  toBounded := ⟨h.limit, h.delta, h.period⟩
  running hen :=
    let hr := h.running hen
    ⟨hr.period, hr.armed, hr.started, hr.ends⟩

/-- The end of a countdown from `delta`, as a number. -/
theorem toNat_nextEvent (hb : b ≤ 0xffff) (hs : s.Bounded b) (hnext : s.nextEvent.toNat < 2 ^ 62) :
    (s.nextEvent + s.delta * s.period +
      if s.periodFrac ≠ 0 then (s.periodFrac.setWidth 64 * s.delta) >>> 32 else 0).toNat =
      s.nextEvent.toNat + s.delta.toNat * s.units / 2 ^ 32 := by
  have hdelta : s.delta.toNat ≤ 0xffff := hs.delta.trans hb
  have hmul : s.delta.toNat * s.period.toNat ≤ 0xffff * 10 ^ 9 := Nat.mul_le_mul hdelta hs.period
  have hfrac : s.periodFrac.toNat * s.delta.toNat ≤ 2 ^ 32 * 0xffff :=
    Nat.mul_le_mul s.periodFrac.isLt.le hdelta
  have hunits : s.delta.toNat * s.units / 2 ^ 32 =
      s.delta.toNat * s.period.toNat + s.periodFrac.toNat * s.delta.toNat / 2 ^ 32 := by
    rw [units, Nat.mul_add, ← Nat.mul_assoc, Nat.add_comm, Nat.add_mul_div_right _ _ (by decide),
      Nat.add_comm, Nat.mul_comm s.periodFrac.toNat]
  have hpart : (if s.periodFrac ≠ 0 then (s.periodFrac.setWidth 64 * s.delta) >>> 32 else 0).toNat =
      s.periodFrac.toNat * s.delta.toNat / 2 ^ 32 := by
    split
    · rw [BitVec.toNat_ushiftRight, Nat.shiftRight_eq_div_pow, BitVec.toNat_mul,
        BitVec.toNat_setWidth_of_le (by decide), Nat.mod_eq_of_lt (by omega)]
    · rename_i h0
      rw [not_not.1 h0]
      simp
  rw [BitVec.toNat_add, BitVec.toNat_add, BitVec.toNat_mul, hpart, hunits,
    Nat.mod_eq_of_lt (show s.delta.toNat * s.period.toNat < 2 ^ 64 by omega)]
  omega

/-- **A reload** starts the countdown at `nextEvent`. -/
theorem Bounded.reload (hb : b ≤ 0xffff) (hnow : now < 2 ^ 62) (h : s.Bounded b)
    (hnext : s.enabled ≠ .disabled → s.nextEvent.toNat ≤ now) : s.reload.Within b now := by
  have hs : s.refill.Bounded b ∧ s.refill.nextEvent = s.nextEvent ∧ s.refill.enabled = s.enabled := by
    unfold refill
    split
    · exact ⟨⟨h.limit, h.limit, h.period⟩, rfl, rfl⟩
    · exact ⟨h, rfl, rfl⟩
  obtain ⟨hs, hnext', hen'⟩ := hs
  unfold Ptimer.reload
  dsimp only
  split
  · exact ⟨⟨hs.limit, hs.delta, hs.period⟩, fun hen => absurd rfl hen⟩
  · rename_i hstart
    refine ⟨⟨hs.limit, hs.delta, hs.period⟩, fun hen => ?_⟩
    have hle : s.refill.nextEvent.toNat ≤ now := by
      rw [hnext']
      exact hnext (hen' ▸ hen)
    exact ⟨fun h0 => hstart (.inr h0), rfl, hle, toNat_nextEvent hb hs (by omega)⟩

theorem Bounded.restart {now : BitVec 64} (hb : b ≤ 0xffff) (hnow : now.toNat < 2 ^ 62)
    (h : s.Bounded b) : (s.restart now).Within b now.toNat := by
  unfold Ptimer.restart
  split
  · exact Bounded.reload hb hnow ⟨h.limit, h.delta, h.period⟩ fun _ => le_rfl
  · rename_i hd
    exact ⟨h, fun hen => absurd hen hd⟩

theorem Bounded.setCount {now count : BitVec 64} (hb : b ≤ 0xffff) (hnow : now.toNat < 2 ^ 62)
    (h : s.Bounded b) (hcount : count.toNat ≤ b) : (s.setCount now count).Within b now.toNat :=
  Bounded.restart hb hnow ⟨h.limit, hcount, h.period⟩

theorem Bounded.setFreq {now : BitVec 64} {freq : BitVec 32} (hb : b ≤ 0xffff)
    (hnow : now.toNat < 2 ^ 62) (h : s.Bounded b) (ht : s.setFreq now freq = .ok t) :
    t.Within b now.toNat := by
  unfold Ptimer.setFreq at ht
  split at ht
  · cases ht
  · cases ht
    refine Bounded.restart hb hnow ⟨h.limit, h.delta, ?_⟩
    show (1000000000 / freq.setWidth 64 : BitVec 64).toNat ≤ 10 ^ 9
    rw [BitVec.toNat_udiv]
    exact Nat.div_le_self _ _

/-- **A new limit** is kept unless the shortest timeout is longer. -/
theorem Bounded.setLimit {now limit : BitVec 64} {b' : ℕ} (hb : b ≤ 0xffff)
    (hnow : now.toNat < 2 ^ 62) (h : s.Bounded b') (hlimit : limit.toNat ≤ b)
    (hmin : s.period ≠ 0 → (10000 / s.period).toNat ≤ b) :
    (s.setLimit now limit true).Within b now.toNat := by
  unfold Ptimer.setLimit
  dsimp only
  have hle : (if limit * s.period < 10000 ∧ s.period ≠ 0 then 10000 / s.period else limit).toNat ≤ b := by
    split
    · rename_i hshort; exact hmin hshort.2
    · exact hlimit
  exact Bounded.restart hb hnow ⟨hle, hle, h.period⟩

theorem Within.run {now : BitVec 64} (hb : b ≤ 0xffff) (hnow : now.toNat < 2 ^ 62)
    (h : s.Within b now.toNat) (oneshot : Bool) : (s.run now oneshot).Within b now.toNat := by
  unfold Ptimer.run
  split
  · exact h
  split
  · exact h
  · exact Bounded.reload hb hnow ⟨h.limit, h.delta, h.period⟩ fun _ => le_rfl

/-- **An expiry** comes after the end of the countdown. -/
theorem Within.expire {now : BitVec 64} (hb : b ≤ 0xffff) (hnow : now.toNat < 2 ^ 62)
    (h : s.Within b now.toNat) (hdue : ∀ d, s.timer = some d → d ≤ now) :
    ({ s with timer := none }.tick).Within b now.toNat := by
  unfold Ptimer.tick
  dsimp only
  split
  · exact ⟨⟨h.limit, Nat.zero_le b, h.period⟩, fun hen => absurd rfl hen⟩
  · exact Bounded.reload hb hnow ⟨h.limit, Nat.zero_le b, h.period⟩ fun hen =>
      hdue s.nextEvent (h.running hen).armed

/-! ## Reading the count -/

/-- The time that is left, as the code computes it. -/
theorem toNat_left {now next : BitVec 64} (hnow : now.toNat < 2 ^ 62)
    (h : ¬ 0 < (now - next).toInt) : (next - now).toNat ≤ next.toNat - now.toNat := by
  have hle : now ≤ next := by
    by_contra hlt
    have hlt : next.toNat < now.toNat := Nat.lt_of_not_le hlt
    have hsub : (now - next).toNat = now.toNat - next.toNat := BitVec.toNat_sub_of_le hlt.le
    rw [BitVec.toInt_eq_toNat_of_lt (by omega), hsub] at h
    omega
  exact (BitVec.toNat_sub_of_le hle).le

/-- **The count is at most the one the timer started from.** -/
theorem Within.getCount {now time : BitVec 64} (h : s.Within b now.toNat) (hle : now ≤ time)
    (htime : time.toNat < 2 ^ 62) : ∃ c, s.getCount time = .ok c ∧ c.toNat ≤ b := by
  unfold Ptimer.getCount
  split
  · rename_i hen
    obtain ⟨hperiod, -, hstarted, hends⟩ := h.running hen
    split
    · exact ⟨0, rfl, Nat.zero_le b⟩
    · rename_i hpending
      have hleft := toNat_left htime fun hpast => hpending (.inl hpast)
      have hrem : (s.nextEvent - time).toNat * 2 ^ 32 ≤ s.delta.toNat * s.units := by
        have hspan : (s.nextEvent - time).toNat ≤ s.delta.toNat * s.units / 2 ^ 32 := by
          have hnow : now.toNat ≤ time.toNat := hle
          omega
        exact (Nat.mul_le_mul_right _ hspan).trans (Nat.div_mul_le_self _ _)
      obtain ⟨hdiv, hquot⟩ := quotient_le hperiod h.period hrem (Nat.min_le_right _ _)
      dsimp only
      rw [if_neg hdiv]
      exact ⟨_, rfl, hquot.trans h.delta⟩
  · exact ⟨s.delta, rfl, h.delta⟩

theorem Within.stop {now : BitVec 64} (hnow : now.toNat < 2 ^ 62) (h : s.Within b now.toNat)
    (ht : s.stop now = .ok t) : t.Within b now.toNat := by
  unfold Ptimer.stop at ht
  split at ht
  · cases ht
    exact h
  · obtain ⟨delta, hdelta, ht⟩ := Machine.bind_eq_ok.1 ht
    obtain ⟨c, hc, hle⟩ := h.getCount (BitVec.le_refl now) hnow
    cases hdelta.symm.trans hc
    cases ht
    exact ⟨⟨h.limit, hle, h.period⟩, fun hen => absurd rfl hen⟩

end Ptimer

end Bluepill
