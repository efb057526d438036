/-
  What `CNT` shows.

  The counter always counts down; a timer that counts up subtracts its count from
  `ARR` when it is written and when it is read.

  * `cnt_round_trip_iff`: a stopped timer keeps the value written, unless it counts up
    and the value is above `ARR`: the difference is negative then, and only 20 bits of
    it are read back;
  * `cnt_in_range`: the value read is at most `ARR`, if the shortest timeout of the
    counter (ten microseconds) is not longer than `ARR` periods whenever the counter is
    reloaded from `ARR`.
-/
import Bluepill.Ptimer.Count
import Bluepill.Timer.Stop

namespace Bluepill

namespace Stm32Timer

variable {env : TimerEnv} {s t : Stm32Timer}

/-! ## Writing and reading -/

/-- The 16 bits of a value, in a wider word. -/
theorem and_ffff_setWidth {w : ℕ} (hw : 16 ≤ w) (v : BitVec 16) :
    v.setWidth w &&& BitVec.ofNat w 0xffff = v.setWidth w := by
  apply BitVec.eq_of_getLsbD_eq
  intro i hi
  by_cases hlow : i < 16
  · exact Word.getLsbD_and_ffff hw _ hlow
  · have hbit : (v.setWidth w).getLsbD i = false := by
      rw [BitVec.getLsbD_setWidth, BitVec.getLsbD_of_ge v i (Nat.le_of_not_lt hlow), Bool.and_false]
    rw [BitVec.getLsbD_and, hbit, Bool.false_and]

/-- Counting up, the value written is subtracted from `ARR` twice. -/
theorem count_up_iff (arr : BitVec 32) (v : BitVec 16) :
    (arr.setWidth 64 - ((arr - (v.setWidth 32 &&& 0xfffff)).setWidth 64 &&& 0xfffff)).setWidth 32 =
      v.setWidth 32 ↔ v.toNat ≤ arr.toNat ∧ arr.toNat < v.toNat + 2 ^ 20 := by
  have hv := v.isLt
  have harr := arr.isLt
  have hmask : ∀ x : ℕ, x &&& 0xfffff = x % 2 ^ 20 := fun x => Nat.and_two_pow_sub_one_eq_mod x 20
  rw [← BitVec.toNat_inj, BitVec.toNat_setWidth, BitVec.toNat_sub, BitVec.toNat_and,
    BitVec.toNat_setWidth_of_le (by decide), BitVec.toNat_setWidth_of_le (by decide),
    BitVec.toNat_setWidth_of_le (by decide), BitVec.toNat_sub, BitVec.toNat_and,
    BitVec.toNat_setWidth_of_le (by decide), show (0xfffff : BitVec 64).toNat = 0xfffff from rfl,
    show (0xfffff : BitVec 32).toNat = 0xfffff from rfl, hmask, hmask]
  omega

theorem getCount_of_disabled (hd : s.timer.enabled = .disabled) (env env' : TimerEnv)
    (count : BitVec 64) : (s.timer.setCount env.now count).getCount env'.now = .ok count := by
  unfold Ptimer.setCount Ptimer.restart
  rw [if_neg (not_not_intro hd)]
  exact if_neg (not_not_intro hd)

/-- A stopped timer shows what `setCount` makes of the value written. -/
theorem write_read_CNT (env env' : TimerEnv) (s : Stm32Timer) (v : BitVec 16) :
    (step s (env, .write 0x24 (v.setWidth 64)) >>= fun t => t.read env' 0x24) =
      (getCount env' (setCount env s (v.setWidth 32)) >>= fun cnt => .ok (cnt.setWidth 64)) := by
  have hvalue : ((v.setWidth 64 &&& 0xffff).setWidth 32 : BitVec 32) = v.setWidth 32 := by
    rw [show (0xffff : BitVec 64) = BitVec.ofNat 64 0xffff from rfl, and_ffff_setWidth (by decide)]
    exact BitVec.setWidth_setWidth_of_le v (by decide)
  rw [← hvalue]
  rfl

theorem write_read_CNT_up (env env' : TimerEnv) (hd : s.timer.enabled = .disabled)
    (hm : s.countMode = .up) (v : BitVec 16) :
    (step s (env, .write 0x24 (v.setWidth 64)) >>= fun t => t.read env' 0x24) =
      .ok (((s.arr.setWidth 64 - ((s.arr - (v.setWidth 32 &&& 0xfffff)).setWidth 64 &&& 0xfffff)
        ).setWidth 32).setWidth 64) := by
  rw [write_read_CNT]
  unfold getCount setCount
  dsimp only
  rw [getCount_of_disabled hd, Machine.ok_bind, hm]
  rfl

theorem write_read_CNT_down (env env' : TimerEnv) (hd : s.timer.enabled = .disabled)
    (hm : s.countMode = .down) (v : BitVec 16) :
    (step s (env, .write 0x24 (v.setWidth 64)) >>= fun t => t.read env' 0x24) =
      .ok (v.setWidth 64) := by
  have hwide : (v.setWidth 32).setWidth 64 = v.setWidth 64 := BitVec.setWidth_setWidth (by decide)
  have hlow : v.setWidth 32 &&& 0xffff = v.setWidth 32 := and_ffff_setWidth (by decide) v
  have hlow' : v.setWidth 64 &&& 0xffff = v.setWidth 64 := and_ffff_setWidth (by decide) v
  rw [write_read_CNT]
  unfold getCount setCount
  dsimp only
  rw [getCount_of_disabled hd, Machine.ok_bind, hm]
  show Except.ok (BitVec.setWidth 64 (BitVec.setWidth 32 _)) = _
  rw [hlow, hwide, hlow', BitVec.setWidth_setWidth_of_le v (by decide), hwide]

/-- **A stopped timer reads back the value written to `CNT`** exactly if it counts down, or the
    value is not above `ARR` (nor 20 bits below it, which no `ARR` of 16 bits can be). -/
theorem cnt_round_trip_iff (env env' : TimerEnv) (s : Stm32Timer)
    (hd : s.timer.enabled = .disabled) (v : BitVec 16) :
    (step s (env, .write 0x24 (v.setWidth 64)) >>= fun t => t.read env' 0x24) = .ok (v.setWidth 64) ↔
      s.countMode = .down ∨ (v.toNat ≤ s.arr.toNat ∧ s.arr.toNat < v.toNat + 2 ^ 20) := by
  have hwide : (v.setWidth 32).setWidth 64 = v.setWidth 64 := BitVec.setWidth_setWidth (by decide)
  cases hm : s.countMode with
  | up =>
    rw [write_read_CNT_up env env' hd hm, ← count_up_iff, Except.ok.injEq, ← hwide]
    refine Iff.trans ?_ (or_iff_right (by simp)).symm
    constructor
    · intro h
      have h32 := congrArg (BitVec.setWidth 32) h
      rwa [Word.setWidth_setWidth_32, Word.setWidth_setWidth_32] at h32
    · exact congrArg (BitVec.setWidth 64)
  | down => exact iff_of_true (write_read_CNT_down env env' hd hm v) (.inl rfl)

/-- A value below `ARR`. -/
theorem cnt_round_trip_below : ∃ rcc s, Stm32Rcc.Reachable zeroHost 8000000 32768 rcc ∧
    Machine.run step (init .TIM2) [(⟨rcc, 0⟩, .write 0x2c 1000)] = .ok s ∧
    (step s (⟨rcc, 0⟩, .write 0x24 7) >>= fun t => t.read ⟨rcc, 0⟩ 0x24) = .ok 7 := by
  obtain ⟨rcc, hrcc⟩ := Stm32Rcc.exists_reachable zeroHost 8000000 32768
  refine ⟨rcc, { init .TIM2 with
    arr := 1000, timer := { Ptimer.init with limit := 1000, delta := 1000 } }, hrcc, rfl, ?_⟩
  exact (cnt_round_trip_iff _ _ _ rfl 7).2 (.inr (by decide))

/-- A value above `ARR`. -/
theorem cnt_round_trip_above : ∃ rcc, Stm32Rcc.Reachable zeroHost 8000000 32768 rcc ∧
    (step (init .TIM2) (⟨rcc, 0⟩, .write 0x24 1) >>= fun t => t.read ⟨rcc, 0⟩ 0x24) =
      .ok 0xfff00001 := by
  obtain ⟨rcc, hrcc⟩ := Stm32Rcc.exists_reachable zeroHost 8000000 32768
  exact ⟨rcc, hrcc, (write_read_CNT_up _ _ rfl rfl 1).trans (by decide)⟩

/-! ## The range -/

/-- `ARR` has 16 bits, and the counts of the counter are at most `ARR`. -/
structure InRange (now : ℕ) (s : Stm32Timer) : Prop where
  arr : s.arr.toNat ≤ 0xffff
  timer : s.timer.Within s.arr.toNat now

theorem inRange_init (periph : Periph) : (init periph).InRange 0 :=
  ⟨Nat.zero_le _, Ptimer.within_init _ _⟩

theorem InRange.mono {now now' : ℕ} (h : s.InRange now) (hle : now ≤ now') : s.InRange now' :=
  ⟨h.arr, h.timer.mono hle⟩

/-- A count below `ARR`, read from the counter or written to it in either direction. -/
theorem sub_count_le {arr : BitVec 32} (harr : arr.toNat ≤ 0xffff) {cnt : BitVec 32}
    (hcnt : cnt ≤ arr) : (arr - (cnt &&& 0xfffff)).toNat ≤ arr.toNat := by
  have hle : cnt.toNat ≤ arr.toNat := hcnt
  rw [BitVec.toNat_sub, BitVec.toNat_and, show (0xfffff : BitVec 32).toNat = 2 ^ 20 - 1 from rfl,
    Nat.and_two_pow_sub_one_eq_mod]
  omega

theorem count_le {arr : BitVec 32} (harr : arr.toNat ≤ 0xffff) {cnt : BitVec 64}
    (hcnt : cnt.toNat ≤ arr.toNat) :
    ((arr.setWidth 64 - (cnt &&& 0xfffff)).setWidth 32).toNat ≤ arr.toNat := by
  rw [BitVec.toNat_setWidth, BitVec.toNat_sub, BitVec.toNat_setWidth_of_le (by decide),
    BitVec.toNat_and, show (0xfffff : BitVec 64).toNat = 2 ^ 20 - 1 from rfl,
    Nat.and_two_pow_sub_one_eq_mod]
  omega

/-- **The value read from `CNT`.** -/
theorem InRange.read_CNT {now : BitVec 64} (h : s.InRange now.toNat) (hle : now ≤ env.now)
    (htime : env.now.toNat < 2 ^ 62) :
    ∃ c, s.read env 0x24 = .ok c ∧ c.toNat ≤ s.arr.toNat := by
  obtain ⟨c, hc, hcle⟩ := h.timer.getCount hle htime
  have hget : ∃ cnt, Stm32Timer.getCount env s = .ok cnt ∧ cnt.toNat ≤ s.arr.toNat := by
    unfold Stm32Timer.getCount
    rw [hc, Machine.ok_bind]
    cases hm : s.countMode with
    | up => exact ⟨_, rfl, count_le h.arr hcle⟩
    | down =>
      refine ⟨_, rfl, le_trans ?_ hcle⟩
      rw [BitVec.toNat_setWidth, BitVec.toNat_and]
      exact (Nat.mod_le _ _).trans Nat.and_le_left
  obtain ⟨cnt, hcnt, hcntle⟩ := hget
  refine ⟨cnt.setWidth 64, ?_, (BitVec.toNat_setWidth_of_le (by decide)).trans_le hcntle⟩
  show (Stm32Timer.getCount env s >>= fun cnt => .ok (cnt.setWidth 64)) = _
  rw [hcnt]
  rfl

section
variable (htime : env.now.toNat < 2 ^ 62)
include htime

theorem InRange.freq (h : s.InRange env.now.toNat) (ht : Stm32Timer.freq env s = .ok t) :
    t.InRange env.now.toNat := by
  unfold Stm32Timer.freq at ht
  obtain ⟨f, -, ht⟩ := Machine.bind_eq_ok.1 ht
  split at ht
  · cases ht
  split at ht
  · obtain ⟨timer, htimer, ht⟩ := Machine.bind_eq_ok.1 ht
    cases ht
    exact ⟨h.arr, h.timer.toBounded.setFreq h.arr htime htimer⟩
  · cases ht
    exact h

theorem InRange.update (h : s.InRange env.now.toNat) (ht : Stm32Timer.update env s = .ok t) :
    t.InRange env.now.toNat := by
  unfold Stm32Timer.update at ht
  obtain ⟨s₁, h₁, ht⟩ := Machine.bind_eq_ok.1 ht
  have hs₁ := h.freq htime h₁
  dsimp only at ht
  split at ht
  · cases ht
    exact ⟨hs₁.arr, hs₁.timer.run hs₁.arr htime _⟩
  · obtain ⟨timer, htimer, ht⟩ := Machine.bind_eq_ok.1 ht
    cases ht
    exact ⟨hs₁.arr, hs₁.timer.stop htime htimer⟩

theorem InRange.setCount (h : s.InRange env.now.toNat) {cnt : BitVec 32} (hcnt : cnt ≤ s.arr) :
    (Stm32Timer.setCount env s cnt).InRange env.now.toNat := by
  have hwide : ∀ x : BitVec 32, x.toNat ≤ s.arr.toNat → (x.setWidth 64).toNat ≤ s.arr.toNat :=
    fun x hx => (BitVec.toNat_setWidth_of_le (by decide)).trans_le hx
  unfold Stm32Timer.setCount
  cases hm : s.countMode with
  | up => exact ⟨h.arr, h.timer.toBounded.setCount h.arr htime (hwide _ (sub_count_le h.arr hcnt))⟩
  | down =>
    refine ⟨h.arr, h.timer.toBounded.setCount h.arr htime (hwide _ (le_trans ?_ hcnt))⟩
    rw [BitVec.toNat_and]
    exact Nat.and_le_left

theorem InRange.tick (h : s.InRange env.now.toNat) (ht : Stm32Timer.tick env s = .ok t) :
    t.InRange env.now.toNat := by
  have hcount : (s.restartCount.setWidth 64).toNat ≤ s.arr.toNat := by
    rw [BitVec.toNat_setWidth_of_le (by decide)]
    unfold restartCount
    split
    · exact sub_count_le h.arr (Nat.zero_le _)
    · rw [BitVec.toNat_and]
      exact Nat.and_le_left
  obtain ⟨mode, ho⟩ : ∃ mode, overflow env s = _ := overflow_eq s
  have hover : (overflow env s).InRange env.now.toNat := by
    rw [ho]
    exact ⟨h.arr, h.timer.toBounded.setCount h.arr htime hcount⟩
  unfold Stm32Timer.tick at ht
  dsimp only at ht
  split at ht
  · cases ht
    exact ⟨hover.arr, hover.timer⟩
  · exact hover.update htime ht

end

/-- The timer, with the time of its last operation. -/
def clockStep (x : BitVec 64 × Stm32Timer) (o : TimerEnv × Op) :
    Except Fault (BitVec 64 × Stm32Timer) := do
  let t ← step x.2 o
  .ok (o.1.now, t)

/-- What the operations keep to: the time (of 62 bits) does not go back, the counter expires at
    its deadline or later, and `CNT` is not set above `ARR`. -/
structure Admissible (x : BitVec 64 × Stm32Timer) (o : TimerEnv × Op) : Prop where
  later : x.1 ≤ o.1.now
  time : o.1.now.toNat < 2 ^ 62
  due : o.2 = .expire → ∀ d, x.2.timer.timer = some d → d ≤ o.1.now
  count : ∀ value, o.2 = .write 0x24 value → (value &&& 0xffff).setWidth 32 ≤ x.2.arr

/-- The shortest timeout of the counter is at most `ARR` periods, when it is reloaded from
    `ARR`. -/
def Unstretched (s : Stm32Timer) : Op → Prop
  | .write 0x2c value => s.timer.period ≠ 0 → 10000 / s.timer.period ≤ value &&& 0xffff
  | .write 0x14 value =>
    value &&& 0x1 ≠ 0 → s.timer.period ≠ 0 → 10000 / s.timer.period ≤ s.arr.setWidth 64
  | _ => True

/-- What the ARR register gets. -/
theorem toNat_ARR (value : BitVec 64) :
    ((value &&& 0xffff).setWidth 32 : BitVec 32).toNat = (value &&& 0xffff).toNat ∧
      (value &&& 0xffff).toNat ≤ 0xffff := by
  have hle : (value &&& 0xffff).toNat ≤ 0xffff := by
    rw [BitVec.toNat_and]
    exact Nat.and_le_right
  exact ⟨by rw [BitVec.toNat_setWidth, Nat.mod_eq_of_lt (by omega)], hle⟩

theorem InRange.egrWrite {value : BitVec 64} (htime : env.now.toNat < 2 ^ 62)
    (h : s.InRange env.now.toNat) (hu : s.Unstretched (.write 0x14 value)) :
    (Stm32Timer.egrWrite env s value).InRange env.now.toNat := by
  unfold Stm32Timer.egrWrite
  dsimp only
  split
  · rename_i hug
    refine ⟨h.arr, h.timer.toBounded.setLimit h.arr htime ?_ fun hp => ?_⟩
    · exact (BitVec.toNat_setWidth_of_le (by decide)).le
    · exact (show (10000 / s.timer.period).toNat ≤ (s.arr.setWidth 64).toNat from hu hug hp).trans_eq
        (BitVec.toNat_setWidth_of_le (by decide))
  · exact ⟨h.arr, h.timer⟩

theorem InRange.write {offset : ℕ} {value : BitVec 64} {x : BitVec 64} (h : s.InRange env.now.toNat)
    (ha : Admissible (x, s) (env, .write offset value)) (hu : s.Unstretched (.write offset value))
    (ht : Stm32Timer.write env s offset value = .ok t) : t.InRange env.now.toNat := by
  have htime := ha.time
  unfold Stm32Timer.write at ht
  split at ht
  case h_1 =>
    refine InRange.update htime ?_ ht
    exact ⟨h.arr, h.timer⟩
  case h_3 => cases ht; exact ⟨h.arr, h.timer⟩
  case h_4 =>
    cases ht
    exact h.egrWrite htime hu
  case h_8 =>
    cases ht
    exact h.setCount htime (ha.count _ rfl)
  case h_9 =>
    refine InRange.freq htime ?_ ht
    exact ⟨h.arr, h.timer⟩
  case h_10 =>
    cases ht
    obtain ⟨harr, hle⟩ := toNat_ARR value
    refine ⟨harr.trans_le hle, h.timer.toBounded.setLimit (harr.trans_le hle) htime ?_ fun hp => ?_⟩
    · exact (BitVec.toNat_setWidth_of_le (by decide)).le
    · exact (show (10000 / s.timer.period).toNat ≤ (value &&& 0xffff).toNat from hu hp).trans_eq harr.symm
  all_goals
    cases ht
    exact ⟨h.arr, h.timer⟩

/-- **An operation keeps the counts below `ARR`.** -/
theorem InRange.step {x y : BitVec 64 × Stm32Timer} {o : TimerEnv × Op} (h : x.2.InRange x.1.toNat)
    (ha : Admissible x o) (hu : x.2.Unstretched o.2) (hy : clockStep x o = .ok y) :
    y.2.InRange y.1.toNat := by
  obtain ⟨t, ht, hy⟩ := Machine.bind_eq_ok.1 hy
  cases hy
  obtain ⟨now, s⟩ := x
  obtain ⟨env, op⟩ := o
  have htime := ha.time
  have hs : s.InRange env.now.toNat := h.mono ha.later
  cases op with
  | read offset => rw [step_read ht]; exact hs
  | write offset value => exact hs.write ha hu ht
  | clkIrq level => exact hs.freq htime (step_clkIrq ht)
  | expire =>
    cases ht
    show InRange _ (if _ then _ else _)
    split
    · exact ⟨hs.arr, hs.timer.expire hs.arr htime (ha.due rfl)⟩
    · exact hs
  | tick =>
    rcases step_tick ht with ⟨-, ht⟩ | ⟨-, rfl⟩
    · refine InRange.tick htime ?_ ht
      exact ⟨hs.arr, hs.timer.bh false⟩
    · exact hs

/-- **The value read from `CNT` is at most `ARR`** in every state of a run whose reloads are not
    stretched, and at every time after. -/
theorem cnt_in_range {periph : Periph} {l : List (TimerEnv × Op)} {x : BitVec 64 × Stm32Timer}
    (ha : ∀ y o, Machine.Takes clockStep (0, init periph) l y o → Admissible y o)
    (hu : ∀ y o, Machine.Takes clockStep (0, init periph) l y o → y.2.Unstretched o.2)
    (hx : Machine.Visits clockStep (0, init periph) l x) (hle : x.1 ≤ env.now)
    (htime : env.now.toNat < 2 ^ 62) :
    ∃ c, x.2.read env 0x24 = .ok c ∧ c.toNat ≤ x.2.arr.toNat := by
  obtain ⟨l₁, l₂, rfl, hr⟩ := hx
  have hall : ∀ y o, Machine.Takes clockStep (0, init periph) l₁ y o →
      Admissible y o ∧ y.2.Unstretched o.2 := fun y o ho =>
    ⟨ha y o (ho.append l₂), hu y o (ho.append l₂)⟩
  have hrange : x.2.InRange x.1.toNat :=
    Machine.history_inv (P := fun _ y => y.2.InRange y.1.toNat)
      (fun _ _ _ _ h hC hy => h.step hC.1 hC.2 hy) (inRange_init periph) hall hr
  exact hrange.read_CNT hle htime

/-! ## The range in use -/

theorem clockStep_ok {now : BitVec 64} {o : TimerEnv × Op} (h : step s o = .ok t) :
    clockStep (now, s) o = .ok (o.1.now, t) := by
  unfold clockStep
  rw [h]
  rfl

/-- Two writes, none of them to `CNT`. -/
theorem admissible_writes {rcc : Stm32Rcc} {offset offset' : ℕ} {value value' : BitVec 64}
    (ho : offset ≠ 0x24) (ho' : offset' ≠ 0x24) (y : BitVec 64 × Stm32Timer) (o : TimerEnv × Op)
    (h : Machine.Takes clockStep (0, s) [(⟨rcc, 0⟩, .write offset value),
      (⟨rcc, 0⟩, .write offset' value')] y o) : Admissible y o := by
  have htime : (0 : BitVec 64).toNat < 2 ^ 62 := by decide
  have hnot : ∀ {k : ℕ} {v w : BitVec 64}, k ≠ 0x24 → Op.write k v ≠ .write 0x24 w := by
    intro k v w hk h
    exact hk (Op.write.inj h).1
  rcases Machine.takes_cons h with ⟨rfl, rfl⟩ | ⟨y₁, hy₁, h⟩
  · exact ⟨BitVec.le_refl _, htime, (fun h => by cases h), fun _ h => absurd h (hnot ho)⟩
  obtain ⟨t, -, hy₁⟩ := Machine.bind_eq_ok.1 hy₁
  cases hy₁
  rcases Machine.takes_cons h with ⟨rfl, rfl⟩ | ⟨y₂, -, l₁, l₂, hl, -⟩
  · exact ⟨BitVec.le_refl _, htime, (fun h => by cases h), fun _ h => absurd h (hnot ho')⟩
  · simp at hl

/-- TIM2 counts 1000 periods of 62.5 nanoseconds. -/
theorem cnt_in_range_counting : ∃ rcc x c, Stm32Rcc.Reachable zeroHost 8000000 32768 rcc ∧
    Machine.run clockStep (0, init .TIM2) [(⟨rcc, 0⟩, .write 0x2c 1000), (⟨rcc, 0⟩, .write 0x00 0x01)] =
      .ok x ∧ x.2.read ⟨rcc, 31250⟩ 0x24 = .ok c ∧ c.toNat ≤ x.2.arr.toNat := by
  obtain ⟨rcc, hrcc, hf⟩ := exists_tim2On
  obtain ⟨t₁, h₁, hrun⟩ := Machine.run_cons_ok.1 (run_counting hf).1
  obtain ⟨t₂, h₂, -⟩ := Machine.run_cons_ok.1 hrun
  have hclock : Machine.run clockStep (0, init .TIM2)
      [(⟨rcc, 0⟩, .write 0x2c 1000), (⟨rcc, 0⟩, .write 0x00 0x01)] = .ok (0, t₂) :=
    Machine.run_cons_ok.2 ⟨(0, t₁), clockStep_ok h₁, Machine.run_cons_ok.2
      ⟨(0, t₂), clockStep_ok h₂, Machine.run_nil _⟩⟩
  have hu : ∀ y o, Machine.Takes clockStep (0, init .TIM2)
      [(⟨rcc, 0⟩, .write 0x2c 1000), (⟨rcc, 0⟩, .write 0x00 0x01)] y o → y.2.Unstretched o.2 := by
    intro y o h
    rcases Machine.takes_cons h with ⟨rfl, rfl⟩ | ⟨y₁, -, h⟩
    · intro hp
      exact absurd rfl hp
    rcases Machine.takes_cons h with ⟨rfl, rfl⟩ | ⟨y₂, -, l₁, l₂, hl, -⟩
    · trivial
    · simp at hl
  have hread : ∃ c, t₂.read ⟨rcc, 31250⟩ 0x24 = .ok c ∧ c.toNat ≤ t₂.arr.toNat :=
    cnt_in_range (admissible_writes (by decide) (by decide)) hu
      ⟨_, [], (List.append_nil _).symm, hclock⟩ (show (0 : BitVec 64) ≤ 31250 by decide)
      (show (31250 : BitVec 64).toNat < 2 ^ 62 by decide)
  obtain ⟨c, hc, hle⟩ := hread
  exact ⟨rcc, (0, t₂), c, hrcc, hclock, hc, hle⟩

/-- With `ARR` 1 the limit of the counter becomes 161, and `CNT` is negative. -/
theorem not_cnt_in_range : ∃ rcc x, Stm32Rcc.Reachable zeroHost 8000000 32768 rcc ∧
    Machine.run clockStep (0, init .TIM2) [(⟨rcc, 0⟩, .write 0x28 0), (⟨rcc, 0⟩, .write 0x2c 1)] =
      .ok x ∧
    (∀ y o, Machine.Takes clockStep (0, init .TIM2)
      [(⟨rcc, 0⟩, .write 0x28 0), (⟨rcc, 0⟩, .write 0x2c 1)] y o → Admissible y o) ∧
    x.2.arr = 1 ∧ x.2.read ⟨rcc, 0⟩ 0x24 = .ok 0xffffff60 := by
  obtain ⟨rcc, hrcc, hf⟩ := exists_tim2On
  have hpsc : step (init .TIM2) (⟨rcc, 0⟩, .write 0x28 0) = .ok { init .TIM2 with
      timer := { Ptimer.init with period := 62, periodFrac := 0x80000000 } } := by
    show freq ⟨rcc, 0⟩ _ = _
    unfold freq
    dsimp only [init]
    rw [hf]
    with_unfolding_all rfl
  have harr : step { init .TIM2 with timer := { Ptimer.init with period := 62, periodFrac := 0x80000000 } }
      (⟨rcc, 0⟩, .write 0x2c 1) = .ok { init .TIM2 with
        arr := 1
        timer := { Ptimer.init with
          period := 62, periodFrac := 0x80000000, limit := 161, delta := 161 } } := rfl
  have hclock : Machine.run clockStep (0, init .TIM2)
      [(⟨rcc, 0⟩, .write 0x28 0), (⟨rcc, 0⟩, .write 0x2c 1)] = .ok _ :=
    Machine.run_cons_ok.2 ⟨_, clockStep_ok hpsc, Machine.run_cons_ok.2
      ⟨_, clockStep_ok harr, Machine.run_nil _⟩⟩
  refine ⟨rcc, _, hrcc, hclock, admissible_writes (by decide) (by decide), rfl, ?_⟩
  show Except.ok (((BitVec.setWidth 64 (1 : BitVec 32)) - (161 &&& 0xfffff)).setWidth 32 |>.setWidth 64) = _
  decide

end Stm32Timer

end Bluepill
