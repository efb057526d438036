/-
  The flags of the real time clock.

  Each tick counts the seconds, sets the flags of `CRL` that are enabled in `CRH`,
  and sends a pulse on the interrupt line if a flag meets its enable bit.

  * `alarm_pulses`: with only the alarm enabled, there is one pulse for each tick at
    which the counter meets the alarm, and no other;
  * `tick_pulse_iff`: a tick sends the pulses it should but for that of an overflow:
    `OWF` is tested and never set;
  * `rtoff_iff`: a write ends with `RTOFF` set, unless there is no register at the
    offset: such a write returns with `RTOFF` clear.
-/
import Bluepill.Rcc.Spec
import Bluepill.Rtc
import Mathlib.Algebra.BigOperators.Intervals

namespace Bluepill

namespace Stm32Rtc

variable {env : TimerEnv} {s t u : Stm32Rtc}

/-- The counter of the seconds. -/
def seconds (s : Stm32Rtc) : BitVec 32 := word s.CNTH s.CNTL

/-- The value it is compared with. -/
def alarm (s : Stm32Rtc) : BitVec 32 := word s.ALRH s.ALRL

/-- The pulses among the levels that are driven: the line is raised, and then lowered. -/
def countPulses (levels : List (BitVec 32)) : ℕ := (levels.zip levels.tail).countP fun p => p.1 ≠ 0 ∧ p.2 = 0

/-- The pulses sent so far. -/
def pulses (s : Stm32Rtc) : ℕ := countPulses s.irq

/-- The level `updateIrq` computes. -/
def irqLevel (CRH CRL : BitVec 16) : BitVec 16 :=
  CRH &&& CRL ||| (CRH >>> 1 &&& CRL >>> 1) ||| (CRH >>> 2 &&& CRL >>> 2)

/-- `CRL` when a tick comes to `updateIrq`; `hit` is the result of `checkAlarm`. -/
def tickFlags (CRH CRL : BitVec 16) (hit : Bool) : BitVec 16 :=
  let CRL := if CRH ≠ 0 then CRL ||| 1 else CRL
  let CRL := if CRH &&& 2 ≠ 0 then CRL ||| (BitVec.ofBool hit).setWidth 16 <<< 1 else CRL
  if CRL &&& 8 = 0 then CRL ||| 8 else CRL

/-! ## Halves of a register -/

theorem word_halves (x : BitVec 32) : word ((x >>> 16).setWidth 16) (x.setWidth 16) = x := by
  apply BitVec.eq_of_getLsbD_eq
  intro i hi
  by_cases hlow : i < 16
  · simp [word, hlow, hi]
  · have hhigh : i - 16 < 16 := by omega
    simp [word, hlow, hi, hhigh, Nat.add_sub_cancel' (Nat.le_of_not_lt hlow)]

/-! ## A tick -/

theorem updateIrq_eq (s : Stm32Rtc) : s.updateIrq =
    if irqLevel s.CRH s.CRL &&& 7 ≠ 0 then
      { s with CRL := s.CRL &&& ~~~ 3, irq := s.irq ++ [(irqLevel s.CRH s.CRL).setWidth 32, 0] }
    else s := rfl

/-- `checkAlarm` in the middle of a tick, when the counter is already the next one. -/
theorem checkAlarm_counted (s : Stm32Rtc) (CRL : BitVec 16) : checkAlarm { s with
      CNTL := (s.seconds + 1).setWidth 16
      CNTH := ((s.seconds + 1) >>> 16).setWidth 16
      CRL } = decide (s.seconds + 1 = s.alarm) := by
  unfold checkAlarm alarm
  rw [word_halves]

theorem tick_eq (env : TimerEnv) (s : Stm32Rtc) : tick env s = startSecond env (updateIrq { s with
    CNTL := (s.seconds + 1).setWidth 16
    CNTH := ((s.seconds + 1) >>> 16).setWidth 16
    CRL := tickFlags s.CRH s.CRL (s.seconds + 1 = s.alarm) }) := by
  have hcheck := checkAlarm_counted s
  have hcount : word s.CNTH s.CNTL = s.seconds := rfl
  unfold tick tickFlags
  by_cases hen : s.CRH = 0
  · have halr : (0 &&& 2 : BitVec 16) = 0 := rfl
    simp only [hen, halr, hcount, ne_eq, not_true_eq_false, if_false]
    split <;> rfl
  by_cases halr : s.CRH &&& 2 = 0
  · simp only [hen, halr, hcount, ne_eq, not_true_eq_false, not_false_eq_true, if_true, if_false]
    split <;> rfl
  · simp only [hen, halr, hcount, hcheck, ne_eq, not_false_eq_true, if_true]
    split <;> rfl

/-! ## The bits of the flags -/

theorem and_seven_ne_zero (x : BitVec 16) :
    x &&& 7 ≠ 0 ↔ ∃ i < 3, x.getLsbD i = true := by
  have hseven : ∀ i < 16, (7 : BitVec 16).getLsbD i = decide (i < 3) := by decide
  rw [← not_iff_not, not_ne_iff]
  constructor
  · rintro h ⟨i, hi, hx⟩
    have hbit := congrArg (BitVec.getLsbD · i) h
    rw [BitVec.getLsbD_and, hx, hseven i (by omega)] at hbit
    simp [hi] at hbit
  · intro h
    apply BitVec.eq_of_getLsbD_eq
    intro i hi
    rw [BitVec.getLsbD_and, hseven i hi]
    by_cases hlow : i < 3
    · have hx : x.getLsbD i = false := Bool.eq_false_iff.2 fun hx => h ⟨i, hlow, hx⟩
      simp [hx]
    · simp [hlow]

/-- **A pulse is sent if a flag meets its enable bit.**  The shifts make two more pairs of
    bits count as such. -/
theorem irqLevel_ne_zero (CRH CRL : BitVec 16) :
    irqLevel CRH CRL &&& 7 ≠ 0 ↔ ∃ i < 5, CRH.getLsbD i = true ∧ CRL.getLsbD i = true := by
  rw [and_seven_ne_zero]
  simp only [irqLevel, BitVec.getLsbD_or, BitVec.getLsbD_and, BitVec.getLsbD_ushiftRight,
    Bool.or_eq_true, Bool.and_eq_true]
  constructor
  · rintro ⟨i, hi, (h | h) | h⟩
    · exact ⟨i, by omega, h⟩
    · exact ⟨1 + i, by omega, h⟩
    · exact ⟨2 + i, by omega, h⟩
  · rintro ⟨i, hi, h⟩
    by_cases hlow : i < 3
    · exact ⟨i, hlow, .inl (.inl h)⟩
    · obtain ⟨j, rfl⟩ : ∃ j, i = 2 + j := ⟨i - 2, by omega⟩
      exact ⟨j, by omega, .inr h⟩

/-- The flags after a tick, but for `RSF`. -/
theorem getLsbD_tickFlags (CRH CRL : BitVec 16) (hit : Bool) {i : ℕ} (hi : i < 16) (hrsf : i ≠ 3) :
    (tickFlags CRH CRL hit).getLsbD i = true ↔
      CRL.getLsbD i = true ∨ (CRH ≠ 0 ∧ i = 0) ∨ (CRH &&& 2 ≠ 0 ∧ i = 1 ∧ hit = true) := by
  have hsync : ∀ i < 16, i ≠ 3 → (8 : BitVec 16).getLsbD i = false := by decide
  have hsec : ∀ i < 16, (1 : BitVec 16).getLsbD i = decide (i = 0) := by decide
  have halr : ∀ hit, ∀ i < 16,
      ((BitVec.ofBool hit).setWidth 16 <<< 1).getLsbD i = (decide (i = 1) && hit) := by decide
  unfold tickFlags
  dsimp only
  simp only [apply_ite (BitVec.getLsbD · i), BitVec.getLsbD_or, hsync i hi hrsf, hsec i hi, halr hit i hi,
    Bool.or_false, ite_self]
  by_cases hen : CRH = 0
  · subst hen; simp
  by_cases hal : CRH &&& 2 = 0 <;>
    simp only [ne_eq, hen, hal, not_true_eq_false, not_false_eq_true, if_true, if_false, true_and,
      false_and, or_false, or_assoc, Bool.or_eq_true, Bool.and_eq_true, decide_eq_true_eq]

/-! ## What a tick does -/

/-- The tick from `s` sends a pulse. -/
def Fires (s : Stm32Rtc) : Prop :=
  irqLevel s.CRH (tickFlags s.CRH s.CRL (s.seconds + 1 = s.alarm)) &&& 7 ≠ 0

instance (s : Stm32Rtc) : Decidable s.Fires := inferInstanceAs (Decidable (_ ≠ _))

theorem tick_seconds (env : TimerEnv) (s : Stm32Rtc) : (tick env s).seconds = s.seconds + 1 := by
  rw [tick_eq, updateIrq_eq]
  split <;> exact word_halves _

theorem tick_alarm (env : TimerEnv) (s : Stm32Rtc) : (tick env s).alarm = s.alarm := by
  rw [tick_eq, updateIrq_eq]
  split <;> rfl

theorem tick_CRH (env : TimerEnv) (s : Stm32Rtc) : (tick env s).CRH = s.CRH := by
  rw [tick_eq, updateIrq_eq]
  split <;> rfl

theorem tick_CRL (env : TimerEnv) (s : Stm32Rtc) : (tick env s).CRL =
    if s.Fires then tickFlags s.CRH s.CRL (s.seconds + 1 = s.alarm) &&& ~~~ 3
    else tickFlags s.CRH s.CRL (s.seconds + 1 = s.alarm) := by
  rw [tick_eq, updateIrq_eq]
  exact apply_ite (fun t => (startSecond env t).CRL) s.Fires _ _

theorem setWidth_ne_zero {x : BitVec 16} (h : x &&& 7 ≠ 0) : x.setWidth 32 ≠ 0#32 := by
  intro hzero
  have hnat := congrArg BitVec.toNat hzero
  rw [BitVec.toNat_setWidth, Nat.mod_eq_of_lt (by omega)] at hnat
  have hx : x = 0#16 := BitVec.eq_of_toNat_eq hnat
  exact h (by rw [hx]; rfl)

theorem countPulses_append {level : BitVec 32} (h : level ≠ 0#32) (levels : List (BitVec 32)) :
    countPulses (levels ++ [level, 0]) = countPulses levels + 1 := by
  induction levels with
  | nil => simp [countPulses, h]
  | cons a levels ih =>
    cases levels with
    | nil => simp [countPulses, h]
    | cons b levels =>
      simp only [countPulses, List.cons_append, List.tail_cons, List.zip_cons_cons, List.countP_cons] at ih ⊢
      omega

theorem tick_pulses (env : TimerEnv) (s : Stm32Rtc) :
    (tick env s).pulses = s.pulses + if s.Fires then 1 else 0 := by
  rw [tick_eq, updateIrq_eq]
  refine (apply_ite (fun t => (startSecond env t).pulses) s.Fires _ _).trans ?_
  split
  · rename_i h
    exact countPulses_append (setWidth_ne_zero h) s.irq
  · rfl

theorem fires_iff (s : Stm32Rtc) : s.Fires ↔ ∃ i < 5, s.CRH.getLsbD i = true ∧
    (tickFlags s.CRH s.CRL (s.seconds + 1 = s.alarm)).getLsbD i = true :=
  irqLevel_ne_zero _ _

/-! ## The interrupt of a tick -/

/-- The bits of `CRH` beyond the three enable bits are clear. -/
theorem getLsbD_of_le_seven {x : BitVec 16} (h : x ≤ 7) {i : ℕ} (hi : 3 ≤ i) : x.getLsbD i = false := by
  have hx : x.toNat < 2 ^ i := by
    have h7 : x.toNat ≤ 7 := h
    have hpow : 2 ^ 3 ≤ 2 ^ i := Nat.pow_le_pow_right (by decide) hi
    omega
  exact Nat.testBit_lt_two_pow hx

/-- The flags are clear: a tick sends a pulse for the second and for the alarm. -/
theorem fires_iff_of_clear (hcrh : s.CRH ≤ 7) (hcrl : s.CRL &&& 7 = 0) : s.Fires ↔
    s.CRH.getLsbD 0 = true ∨ (s.CRH.getLsbD 1 = true ∧ s.seconds + 1 = s.alarm) := by
  have hclear : ∀ i < 3, s.CRL.getLsbD i = false := fun i hi =>
    Bool.eq_false_iff.2 fun h => (and_seven_ne_zero s.CRL).2 ⟨i, hi, h⟩ hcrl
  rw [fires_iff]
  constructor
  · rintro ⟨i, hi, hen, hfl⟩
    have hlow : i < 3 := by
      by_contra hge
      rw [getLsbD_of_le_seven hcrh (Nat.le_of_not_lt hge)] at hen
      cases hen
    rcases (getLsbD_tickFlags _ _ _ (by omega) (by omega)).1 hfl with h | ⟨-, rfl⟩ | ⟨-, rfl, hit⟩
    · rw [hclear i hlow] at h
      cases h
    · exact .inl hen
    · exact .inr ⟨hen, of_decide_eq_true hit⟩
  · rintro (hen | ⟨hen, hit⟩)
    · have hne : s.CRH ≠ 0 := by intro h; rw [h] at hen; cases hen
      exact ⟨0, by decide, hen, (getLsbD_tickFlags _ _ _ (by decide) (by decide)).2 (.inr (.inl ⟨hne, rfl⟩))⟩
    · have hne : s.CRH &&& 2 ≠ 0 := (Word.and_twoPow_ne_zero s.CRH (b := 1) (by decide)).2 hen
      exact ⟨1, by decide, hen, (getLsbD_tickFlags _ _ _ (by decide) (by decide)).2
        (.inr (.inr ⟨hne, rfl, decide_eq_true hit⟩))⟩

/-- **A tick sends the pulses it should,** unless an overflow is the only reason for one. -/
theorem tick_pulse_iff (env : TimerEnv) (s : Stm32Rtc) (hcrh : s.CRH ≤ 7) (hcrl : s.CRL &&& 7 = 0) :
    (s.pulses < (tick env s).pulses ↔ s.CRH.getLsbD 0 = true ∨
      (s.CRH.getLsbD 1 = true ∧ s.seconds + 1 = s.alarm) ∨
      (s.CRH.getLsbD 2 = true ∧ s.seconds = 0xFFFFFFFF)) ↔
    (s.CRH.getLsbD 2 = true → s.seconds = 0xFFFFFFFF → s.CRH.getLsbD 0 = true ∨
      (s.CRH.getLsbD 1 = true ∧ s.seconds + 1 = s.alarm)) := by
  have hpulse : s.pulses < (tick env s).pulses ↔ s.Fires := by
    rw [tick_pulses]
    split <;> simp [*]
  rw [hpulse, fires_iff_of_clear hcrh hcrl, ← or_assoc]
  constructor
  · intro h how hwrap
    exact h.2 (.inr ⟨how, hwrap⟩)
  · intro h
    refine ⟨.inl, ?_⟩
    rintro (hfire | ⟨how, hwrap⟩)
    · exact hfire
    · exact h how hwrap

/-- The last second before the counter wraps. -/
def lastSecond (CRH : BitVec 16) : Stm32Rtc :=
  { init .RTC with CRL := 0x30, CRH, CNTH := 0xffff, CNTL := 0xffff }

theorem run_lastSecond (env : TimerEnv) :
    Machine.run step (init .RTC) [(env, .write 0x04 0x10), (env, .write 0x18 0xffff),
      (env, .write 0x1c 0xffff)] = .ok (lastSecond 0) := rfl

/-- All interrupts enabled: the pulse of the second is one for the overflow too. -/
theorem tick_pulse_second : ∃ env : TimerEnv, ∃ s : Stm32Rtc,
    Machine.run step (init .RTC) [(env, .write 0x04 0x10), (env, .write 0x18 0xffff),
      (env, .write 0x1c 0xffff), (env, .write 0x00 0x07)] = .ok s ∧
    s.CRH ≤ 7 ∧ s.CRL &&& 7 = 0 ∧ s.seconds = 0xFFFFFFFF ∧ s.pulses < (tick env s).pulses := by
  obtain ⟨rcc, -⟩ := Stm32Rcc.exists_reachable zeroHost 8000000 32768
  have hrun := Machine.run_snoc_ok.2 ⟨_, run_lastSecond ⟨rcc, 0⟩,
    (rfl : step (lastSecond 0) (⟨rcc, 0⟩, .write 0x00 0x07) = .ok (lastSecond 7))⟩
  have hpulse := tick_pulse_iff ⟨rcc, 0⟩ (lastSecond 7) (by decide) (by decide)
  exact ⟨_, _, hrun, by decide, by decide, by decide, (hpulse.2 fun _ _ => .inl rfl).2 (.inl rfl)⟩

/-- Only the interrupt of the overflow is enabled: the counter wraps without a pulse. -/
theorem tick_pulse_overflow_lost : ∃ env : TimerEnv, ∃ s : Stm32Rtc,
    Machine.run step (init .RTC) [(env, .write 0x04 0x10), (env, .write 0x18 0xffff),
      (env, .write 0x1c 0xffff), (env, .write 0x00 0x04)] = .ok s ∧
    s.CRH ≤ 7 ∧ s.CRL &&& 7 = 0 ∧ s.CRH.getLsbD 2 = true ∧ s.seconds = 0xFFFFFFFF ∧
    (tick env s).seconds = 0 ∧ ¬ s.pulses < (tick env s).pulses := by
  obtain ⟨rcc, -⟩ := Stm32Rcc.exists_reachable zeroHost 8000000 32768
  have hrun := Machine.run_snoc_ok.2 ⟨_, run_lastSecond ⟨rcc, 0⟩,
    (rfl : step (lastSecond 0) (⟨rcc, 0⟩, .write 0x00 0x04) = .ok (lastSecond 4))⟩
  refine ⟨_, _, hrun, by decide, by decide, by decide, by decide, tick_seconds _ _, ?_⟩
  rw [tick_pulses, if_neg (by decide)]
  exact lt_irrefl _

/-! ## The alarm -/

/-- The ticks among the next `k` at which a counter at `c` meets the alarm `a`. -/
def meetings (c a : BitVec 32) (k : ℕ) : ℕ :=
  ((Finset.Icc 1 k).filter fun i => c + BitVec.ofNat 32 i = a).card

theorem meetings_succ (c a : BitVec 32) (k : ℕ) : meetings c a (k + 1) =
    meetings c a k + if c + BitVec.ofNat 32 k + 1 = a then 1 else 0 := by
  have hnext : c + BitVec.ofNat 32 (k + 1) = c + BitVec.ofNat 32 k + 1 := by
    rw [BitVec.ofNat_add, BitVec.add_assoc]
    rfl
  unfold meetings
  rw [Finset.card_filter, Finset.card_filter, Finset.sum_Icc_succ_top (by omega), hnext]

/-- From `s`, with only the alarm enabled, `k` ticks lead to `u`. -/
structure AfterTicks (s : Stm32Rtc) (k : ℕ) (u : Stm32Rtc) : Prop where
  CRH : u.CRH = 2
  ALRF : u.CRL.getLsbD 1 = false
  alarm : u.alarm = s.alarm
  seconds : u.seconds = s.seconds + BitVec.ofNat 32 k
  pulses : u.pulses = s.pulses + meetings s.seconds s.alarm k

theorem AfterTicks.zero (hcrh : s.CRH = 2) (halrf : s.CRL.getLsbD 1 = false) : AfterTicks s 0 s :=
  ⟨hcrh, halrf, rfl, (BitVec.add_zero _).symm, rfl⟩

/-- With only the alarm enabled, `ALRF` is set when the alarm is met. -/
theorem tickFlags_ALRF {CRL : BitVec 16} (halrf : CRL.getLsbD 1 = false) (hit : Bool) :
    (tickFlags 2 CRL hit).getLsbD 1 = true ↔ hit = true := by
  rw [getLsbD_tickFlags 2 CRL hit (by decide) (by decide), halrf]
  simp

/-- With only the alarm enabled and `ALRF` clear, a tick sends a pulse for the alarm alone: the
    flag of the second is set as well, but nothing tests it. -/
theorem fires_iff_of_alarm (hcrh : s.CRH = 2) (halrf : s.CRL.getLsbD 1 = false) :
    s.Fires ↔ s.seconds + 1 = s.alarm := by
  have hbit : ∀ i < 5, (2 : BitVec 16).getLsbD i = true ↔ i = 1 := by decide
  rw [fires_iff, hcrh]
  constructor
  · rintro ⟨i, hi, hen, hfl⟩
    obtain rfl := (hbit i hi).1 hen
    exact of_decide_eq_true ((tickFlags_ALRF halrf _).1 hfl)
  · intro hit
    exact ⟨1, by decide, rfl, (tickFlags_ALRF halrf _).2 (decide_eq_true hit)⟩

/-- A pulse takes `ALRF` with it. -/
theorem tick_ALRF (env : TimerEnv) (hcrh : s.CRH = 2) (halrf : s.CRL.getLsbD 1 = false) :
    (tick env s).CRL.getLsbD 1 = false := by
  rw [tick_CRL]
  split
  · rw [BitVec.getLsbD_and, show (~~~ 3 : BitVec 16).getLsbD 1 = false from rfl, Bool.and_false]
  · rename_i hquiet
    rw [fires_iff_of_alarm hcrh halrf] at hquiet
    rw [hcrh, Bool.eq_false_iff]
    intro hfl
    exact hquiet (of_decide_eq_true ((tickFlags_ALRF halrf _).1 hfl))

theorem AfterTicks.tick {k : ℕ} (h : AfterTicks s k u) (env : TimerEnv) :
    AfterTicks s (k + 1) (Stm32Rtc.tick env u) where
  CRH := (tick_CRH env u).trans h.CRH
  ALRF := tick_ALRF env h.CRH h.ALRF
  alarm := (tick_alarm env u).trans h.alarm
  seconds := by
    rw [tick_seconds, h.seconds, BitVec.ofNat_add, BitVec.add_assoc]
    rfl
  pulses := by
    have hfires : u.Fires ↔ s.seconds + BitVec.ofNat 32 k + 1 = s.alarm := by
      rw [fires_iff_of_alarm h.CRH h.ALRF, h.seconds, h.alarm]
    rw [tick_pulses, h.pulses, meetings_succ, if_congr hfires rfl rfl, Nat.add_assoc]

/-- The registers are as they were; the `Ptimer` may be another. -/
theorem AfterTicks.ptimer {k : ℕ} (h : AfterTicks s k u) (freq : BitVec 32) (ptimer : Ptimer) :
    AfterTicks s k { u with freq, ptimer } :=
  ⟨h.CRH, h.ALRF, h.alarm, h.seconds, h.pulses⟩

theorem clkIrq_eq {n : ℕ} {level : Bool} (h : clkIrqHandler env s n level = .ok t) :
    ∃ freq ptimer, t = { s with freq, ptimer } := by
  unfold clkIrqHandler at h
  obtain ⟨freq, -, h⟩ := Machine.bind_eq_ok.1 h
  dsimp only at h
  split at h
  · obtain ⟨ptimer, -, h⟩ := Machine.bind_eq_ok.1 h
    cases h
    exact ⟨freq, _, rfl⟩
  · cases h
    exact ⟨freq, s.ptimer, rfl⟩

/-- The operation does not access the registers. -/
def Op.quiet : Op → Bool
  | .clkIrq _ | .expire | .tick => true
  | .read _ | .write _ _ | .reset => false

/-- The tick an operation performs: a bottom half must be scheduled. -/
def ticked (s : Stm32Rtc) (o : TimerEnv × Op) : List TimerEnv :=
  match o.2 with
  | .tick => if s.ptimer.bh then [o.1] else []
  | _ => []

theorem AfterTicks.step {e : List TimerEnv} {o : TimerEnv × Op} (h : AfterTicks s e.length t)
    (ho : o.2.quiet = true) (hu : Stm32Rtc.step t o = .ok u) :
    AfterTicks s (e ++ ticked t o).length u := by
  obtain ⟨env, op⟩ := o
  cases op with
  | read | write | reset => cases ho
  | clkIrq level =>
    have hclk : clkIrqHandler env t 0 level = .ok u := hu
    obtain ⟨freq, ptimer, rfl⟩ := clkIrq_eq hclk
    rw [show ticked t (env, .clkIrq level) = [] from rfl, List.append_nil]
    exact h.ptimer freq ptimer
  | expire =>
    cases hu
    rw [show ticked t (env, .expire) = [] from rfl, List.append_nil]
    split
    · exact h.ptimer _ _
    · exact h
  | tick =>
    cases hu
    cases hbh : t.ptimer.bh with
    | false =>
      have hticked : ticked t (env, .tick) = [] := if_neg (by simp [hbh])
      rw [hticked, List.append_nil]
      exact h
    | true =>
      have hticked : ticked t (env, .tick) = [env] := if_pos hbh
      rw [hticked, List.length_append]
      exact (h.ptimer t.freq _).tick env

/-- **With only the alarm enabled, there is one pulse for each tick at which the counter meets the
    alarm.**  The ticks are `k` calls in a row, or the `k` that occur in a run of the device
    without accesses to its registers. -/
theorem alarm_pulses (s : Stm32Rtc) (hcrh : s.CRH = 2) (halrf : s.CRL.getLsbD 1 = false) :
    (∀ envs : List TimerEnv,
      let u := envs.foldl (fun t env => tick env t) s
      u.seconds = s.seconds + BitVec.ofNat 32 envs.length ∧
      u.pulses = s.pulses + meetings s.seconds s.alarm envs.length) ∧
    ∀ (l : List (TimerEnv × Op)) (u : Stm32Rtc), (∀ o ∈ l, o.2.quiet = true) →
      Machine.run step s l = .ok u →
      u.seconds = s.seconds + BitVec.ofNat 32 (Machine.trace step ticked s l).length ∧
      u.pulses = s.pulses + meetings s.seconds s.alarm (Machine.trace step ticked s l).length := by
  have hzero := AfterTicks.zero hcrh halrf
  constructor
  · intro envs
    have hall : AfterTicks s envs.length (envs.foldl (fun t env => tick env t) s) := by
      induction envs using List.reverseRecOn with
      | nil => exact hzero
      | append_singleton envs env ih =>
        rw [List.foldl_append, List.length_append]
        exact ih.tick env
    exact ⟨hall.seconds, hall.pulses⟩
  · intro l u hl hr
    have hall := Machine.trace_inv (P := fun e u => AfterTicks s e.length u)
      (C := fun _ o => o.2.quiet = true) (fun _ _ _ _ h ho hu => h.step ho hu) hzero
      (fun t o ho => hl o ho.mem) hr
    exact ⟨hall.seconds, hall.pulses⟩

/-- An alarm set two seconds ahead. -/
def alarmAhead : Stm32Rtc := { init .RTC with CRL := 0x30, CRH := 2, ALRH := 0, ALRL := 2 }

/-- Three ticks, and a run with one. -/
theorem alarm_pulses_ahead : ∃ env : TimerEnv,
    Machine.run step (init .RTC) [(env, .write 0x04 0x10), (env, .write 0x20 0),
      (env, .write 0x24 2), (env, .write 0x00 0x02)] = .ok alarmAhead ∧
    (tick env (tick env (tick env alarmAhead))).seconds = 3 ∧
    (tick env (tick env (tick env alarmAhead))).pulses = 1 ∧
    ∃ u, Machine.run step { alarmAhead with ptimer := { Ptimer.init with bh := true } } [(env, .tick)] =
      .ok u ∧ u.seconds = 1 ∧ u.pulses = 0 := by
  obtain ⟨rcc, -⟩ := Stm32Rcc.exists_reachable zeroHost 8000000 32768
  have hthree := (alarm_pulses alarmAhead rfl rfl).1 [⟨rcc, 0⟩, ⟨rcc, 0⟩, ⟨rcc, 0⟩]
  have hone := (alarm_pulses { alarmAhead with ptimer := { Ptimer.init with bh := true } } rfl rfl).2
    [(⟨rcc, 0⟩, .tick)] _ (by simp [Op.quiet]) rfl
  exact ⟨⟨rcc, 0⟩, rfl, hthree.1, hthree.2, _, rfl, hone.1, hone.2⟩

/-! ## The end of a write -/

/-- The offsets of the registers, though not all of these can be written. -/
def registers : List ℕ := [0x00, 0x04, 0x08, 0x0c, 0x10, 0x14, 0x18, 0x1c, 0x20, 0x24]

/-- The operation is not a write that misses the registers. -/
def Known : Op → Prop
  | .write offset _ => offset ∈ registers
  | _ => True

theorem writeReg_isSome {offset : ℕ} {value : BitVec 64} {r : Option Stm32Rtc}
    (h : s.writeReg offset value = .ok r) : r.isSome = true ↔ offset ∈ registers := by
  unfold writeReg at h
  split at h
  case h_11 =>
    cases h
    refine iff_of_false (by simp) ?_
    simp only [registers, List.mem_cons, List.not_mem_nil]
    tauto
  all_goals cases h
  all_goals exact iff_of_true rfl (by decide)

/-- **`RTOFF` after a write** is set exactly if there is a register. -/
theorem write_RTOFF {offset : ℕ} {value : BitVec 64} (h : s.write offset value = .ok t) :
    t.CRL.getLsbD 5 = true ↔ offset ∈ registers := by
  have hoff : (s.CRL &&& ~~~ 0x20).getLsbD 5 = false := by
    rw [BitVec.getLsbD_and, show (~~~ 0x20 : BitVec 16).getLsbD 5 = false from rfl, Bool.and_false]
  unfold write at h
  split at h
  · cases h
  obtain ⟨r, hr, h⟩ := Machine.bind_eq_ok.1 h
  rw [← writeReg_isSome hr]
  cases r with
  | none =>
    obtain rfl := Except.ok.inj h
    exact iff_of_false (Bool.eq_false_iff.1 hoff) (by simp)
  | some r =>
    obtain rfl := Except.ok.inj h
    refine iff_of_true ?_ rfl
    show (r.CRL ||| 0x20).getLsbD 5 = true
    rw [BitVec.getLsbD_or, show (0x20 : BitVec 16).getLsbD 5 = true from rfl, Bool.or_true]

theorem tick_RTOFF (env : TimerEnv) (s : Stm32Rtc) :
    (tick env s).CRL.getLsbD 5 = true ↔ s.CRL.getLsbD 5 = true := by
  have hflags := getLsbD_tickFlags s.CRH s.CRL (s.seconds + 1 = s.alarm) (i := 5) (by decide) (by decide)
  have hset : (tickFlags s.CRH s.CRL (s.seconds + 1 = s.alarm)).getLsbD 5 = true ↔
      s.CRL.getLsbD 5 = true := by
    rw [hflags]
    simp
  rw [tick_CRL]
  split
  · rw [BitVec.getLsbD_and, show (~~~ 3 : BitVec 16).getLsbD 5 = true from rfl, Bool.and_true]
    exact hset
  · exact hset

theorem reset_RTOFF (s : Stm32Rtc) : s.reset.CRL.getLsbD 5 = true := by
  show (0x0020 : BitVec 16).getLsbD 5 = true
  decide

/-- What each operation does to `RTOFF`. -/
theorem step_RTOFF {o : TimerEnv × Op} (hs : s.CRL.getLsbD 5 = true) (h : step s o = .ok t) :
    t.CRL.getLsbD 5 = true ↔ Known o.2 := by
  obtain ⟨env, op⟩ := o
  cases op with
  | read offset =>
    obtain ⟨_, -, h⟩ := Machine.bind_eq_ok.1 h
    cases h
    exact iff_of_true hs trivial
  | write offset value => exact write_RTOFF h
  | clkIrq level =>
    have hclk : clkIrqHandler env s 0 level = .ok t := h
    obtain ⟨freq, ptimer, rfl⟩ := clkIrq_eq hclk
    exact iff_of_true hs trivial
  | expire =>
    cases h
    refine iff_of_true ?_ trivial
    split
    · exact hs
    · exact hs
  | tick =>
    cases h
    refine iff_of_true ?_ trivial
    split
    · exact (tick_RTOFF env _).2 hs
    · exact hs
  | reset =>
    cases h
    exact iff_of_true (reset_RTOFF s) trivial

/-- **After a reset, `RTOFF` is always set if no write misses the registers,** and only then: a
    write that does leaves it clear. -/
theorem rtoff_iff {s₀ u : Stm32Rtc} {l : List (TimerEnv × Op)}
    (hr : Machine.run step s₀.reset l = .ok u) :
    (∀ t, Machine.Visits step s₀.reset l t → t.CRL.getLsbD 5 = true) ↔
      ∀ t o, Machine.Takes step s₀.reset l t o → Known o.2 :=
  Machine.visits_iff_takes (I := fun _ => True) (fun _ _ _ _ _ => trivial)
    (fun _ _ _ _ ht h => step_RTOFF ht h) trivial
    (reset_RTOFF s₀) hr

/-- The second is set, with a tick after it. -/
theorem rtoff_registers : ∃ env : TimerEnv, ∃ u : Stm32Rtc,
    Machine.run step (init .RTC).reset [(env, .write 0x04 0x10), (env, .write 0x0c 9),
      (env, .write 0x04 0x00), (env, .tick), (env, .read 0x04)] = .ok u ∧
    u.CRL.getLsbD 5 = true := by
  obtain ⟨rcc, -⟩ := Stm32Rcc.exists_reachable zeroHost 8000000 32768
  obtain ⟨u, hu⟩ : ∃ u, Machine.run step (init .RTC).reset [(⟨rcc, 0⟩, .write 0x04 0x10),
      (⟨rcc, 0⟩, .write 0x0c 9), (⟨rcc, 0⟩, .write 0x04 0x00), (⟨rcc, 0⟩, .tick),
      (⟨rcc, 0⟩, .read 0x04)] = .ok u := ⟨_, rfl⟩
  refine ⟨⟨rcc, 0⟩, u, hu, (rtoff_iff hu).2 ?_ u ⟨_, [], (List.append_nil _).symm, hu⟩⟩
  intro t o ho
  have hmem := ho.mem
  simp only [List.mem_cons, List.not_mem_nil, or_false] at hmem
  rcases hmem with rfl | rfl | rfl | rfl | rfl <;> simp [Known, registers]

/-- A write beyond the last register, in configuration mode: `RTOFF` stays clear. -/
theorem rtoff_missed : ∃ env : TimerEnv, ∃ u : Stm32Rtc,
    Machine.run step (init .RTC).reset [(env, .write 0x04 0x10), (env, .write 0x28 0)] = .ok u ∧
    u.CRL.getLsbD 5 = false := by
  obtain ⟨rcc, -⟩ := Stm32Rcc.exists_reachable zeroHost 8000000 32768
  exact ⟨⟨rcc, 0⟩, _, rfl, rfl⟩

end Stm32Rtc

end Bluepill
