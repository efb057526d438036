/-
  A disabled timer should be stopped.

  `CEN` starts and stops the counter.  A timer with `CEN = 0` is stopped if its `Ptimer` is idle:
  then no expiry is pending and no tick scheduled, and no update event can follow.  Three things
  keep it from being idle:

  * in one-pulse mode the tick clears `CEN` and leaves the counter alone.  The counter would have
    stopped by itself if it ran for one period only; but `update` runs it so in the other mode;
  * a reload with nothing to count disables the `Ptimer` with its expiry still pending, and
    `ptimer_stop` does nothing for a `Ptimer` that is disabled;
  * `ptimer_stop` does not cancel a tick that has been scheduled.

  `stopped_iff`: the timer is stopped along a run exactly if none of them happens
  (`KeepsStopped`).
-/
import Bluepill.Rcc.Clocks
import Bluepill.Timer

namespace Bluepill

open Rcc Stm32Rcc

namespace Stm32Timer

variable {env : TimerEnv} {s t : Stm32Timer}

/-- If the timer is not enabled, its counter does not run, and nothing is left of it. -/
def Stopped (s : Stm32Timer) : Prop := s.cr1 &&& 0x01 = 0 → s.timer.Idle

/-! ## The counter -/

theorem freq_live (hs : s.timer.Live) (h : freq env s = .ok t) : t.timer.Live := by
  unfold freq at h
  obtain ⟨f, -, h⟩ := Machine.bind_eq_ok.1 h
  split at h
  · cases h
  split at h
  · obtain ⟨timer, ht, h⟩ := Machine.bind_eq_ok.1 h
    cases h
    exact Ptimer.live_setFreq ht
  · cases h
    exact hs

theorem update_live (hs : s.timer.Live) (h : update env s = .ok t) : t.timer.Live := by
  unfold update at h
  obtain ⟨s₁, h₁, h⟩ := Machine.bind_eq_ok.1 h
  have hlive := freq_live hs h₁
  dsimp only at h
  split at h
  · cases h
    exact hlive.run _
  · obtain ⟨timer, ht, h⟩ := Machine.bind_eq_ok.1 h
    cases h
    exact Ptimer.live_stop ht

theorem overflow_live (s : Stm32Timer) : (overflow env s).timer.Live := by
  obtain ⟨mode, ho⟩ : ∃ mode, overflow env s = _ := overflow_eq s
  rw [ho]
  exact Ptimer.live_restart _

theorem tick_live (h : tick env s = .ok t) : t.timer.Live := by
  unfold tick at h
  dsimp only at h
  split at h
  · cases h
    exact overflow_live s
  · exact update_live (overflow_live s) h

/-- **The counter that runs has an expiry pending**, in every state. -/
theorem step_live {o : TimerEnv × Op} (hs : s.timer.Live) (h : step s o = .ok t) : t.timer.Live := by
  obtain ⟨env, o⟩ := o
  cases o with
  | read offset =>
    rw [step_read h]
    exact hs
  | write offset value =>
    change write env s offset value = .ok t at h
    unfold write at h
    split at h
    case h_1 => exact update_live (s := { s with cr1 := (value &&& 0x3FF).setWidth 32 }) hs h
    case h_4 =>
      cases h
      unfold egrWrite
      dsimp only
      split
      · exact hs.setLimit _ _
      · exact hs
    case h_8 =>
      cases h
      exact Ptimer.live_restart _
    case h_9 => exact freq_live (s := { s with psc := (value &&& 0xffff).setWidth 32 }) hs h
    case h_10 =>
      cases h
      exact hs.setLimit _ _
    all_goals
      cases h
      exact hs
  | clkIrq level => exact freq_live hs (step_clkIrq h)
  | expire =>
    cases h
    show Ptimer.Live (timer (if _ then _ else _))
    split
    · exact Ptimer.live_tick _
    · exact hs
  | tick =>
    rcases step_tick h with ⟨-, h⟩ | ⟨-, rfl⟩
    · exact tick_live h
    · exact hs

theorem freq_idle (h : freq env s = .ok t) (hs : s.timer.Idle) : t.timer.Idle := by
  unfold freq at h
  obtain ⟨f, -, h⟩ := Machine.bind_eq_ok.1 h
  split at h
  · cases h
  split at h
  · obtain ⟨timer, ht, h⟩ := Machine.bind_eq_ok.1 h
    cases h
    exact hs.setFreq ht
  · cases h
    exact hs

/-- The counter does not count faster than once in a nanosecond. -/
def Resolved (env : TimerEnv) (s : Stm32Timer) : Prop :=
  ∀ f, env.rcc.getPeriphFreq s.periph = .ok f → (2 * f / (s.psc + 1)).toNat ≤ 1000000000

/-- **`update` with `CEN = 0` leaves the counter idle**, if it can be stopped. -/
theorem update_idle_iff (hs : s.timer.Live) (hcen : s.cr1 &&& 0x01 = 0) (h : update env s = .ok t) :
    t.timer.Idle ↔ s.timer.Stoppable ∧ (s.timer.enabled ≠ .disabled → Resolved env s) := by
  unfold update at h
  obtain ⟨s₁, h₁, h⟩ := Machine.bind_eq_ok.1 h
  have hcr1 : s₁.cr1 = s.cr1 := by
    obtain ⟨timer, rfl⟩ := freq_eq h₁
    rfl
  dsimp only at h
  rw [hcr1, if_neg (not_not.2 hcen)] at h
  obtain ⟨timer, ht, h⟩ := Machine.bind_eq_ok.1 h
  cases h
  rw [Ptimer.stop_idle_iff ht]
  unfold freq at h₁
  obtain ⟨f, hf, h₁⟩ := Machine.bind_eq_ok.1 h₁
  have hresolved : Resolved env s ↔ (2 * f / (s.psc + 1)).toNat ≤ 1000000000 := by
    unfold Resolved
    rw [hf]
    exact ⟨fun h => h f rfl, fun h g hg => Except.ok.inj hg ▸ h⟩
  rw [hresolved]
  split at h₁
  case isTrue => cases h₁
  case isFalse =>
    split at h₁
    case isTrue =>
      obtain ⟨timer', ht', h₁⟩ := Machine.bind_eq_ok.1 h₁
      cases h₁
      exact Ptimer.setFreq_stoppable_iff hs ht'
    case isFalse hzero =>
      cases h₁
      refine ⟨fun h => ⟨h, fun _ => ?_⟩, fun h => h.1⟩
      rw [not_not.1 hzero]
      exact Nat.zero_le _

/-- The reload of the counter in a tick does not stop it. -/
theorem overflow_idle_iff (hs : s.timer.Live) : (overflow env s).timer.Idle ↔ s.timer.Idle := by
  obtain ⟨mode, ho⟩ : ∃ mode, overflow env s = _ := overflow_eq s
  have hrestart : (({ s.timer with delta := s.restartCount.setWidth 64 } : Ptimer).restart env.now).Idle ↔ _ :=
    Ptimer.restart_idle_iff fun hon => (hs hon).2.1
  rw [ho]
  exact hrestart.trans ⟨fun h => ⟨h.enabled, h.timer, h.bh⟩, fun h => ⟨h.enabled, h.timer, h.bh⟩⟩

/-! ## The operations -/

/-- The operations that keep a disabled timer stopped: a write that clears `CEN`, if the counter can be stopped;
    a tick in one-pulse mode, if the counter has stopped by itself; and all others. -/
def KeepsStopped (s : Stm32Timer) : TimerEnv × Op → Prop
  | (env, .write offset value) => offset = 0x00 → value.getLsbD 0 = false →
    s.timer.Stoppable ∧ (s.timer.enabled ≠ .disabled → Resolved env s)
  | (_, .tick) => s.timer.bh = true → s.cr1 &&& 0x04 ≠ 0 → s.timer.enabled = .disabled ∧ s.timer.timer = none
  | _ => True

theorem overflow_cr1 (s : Stm32Timer) : (overflow env s).cr1 = s.cr1 := by
  obtain ⟨mode, ho⟩ : ∃ mode, overflow env s = _ := overflow_eq s
  rw [ho]

/-- A tick in one-pulse mode leaves the counter to itself. -/
theorem tick_onePulse (h : s.cr1 &&& 0x04 ≠ 0) :
    tick env s = .ok { overflow env s with cr1 := s.cr1 &&& 0xFFFE } := by
  unfold tick
  dsimp only
  rw [overflow_cr1, if_pos h]

theorem tick_stopped_iff (hs : s.timer.Live) (hcen : s.cr1 &&& 0x01 ≠ 0) (h : tick env s = .ok t) :
    t.Stopped ↔ (s.cr1 &&& 0x04 ≠ 0 → s.timer.Idle) := by
  rw [← @overflow_idle_iff env s hs]
  by_cases hopm : s.cr1 &&& 0x04 ≠ 0
  · rw [tick_onePulse hopm] at h
    cases h
    have hoff : s.cr1 &&& 0xFFFE &&& 0x01 = 0 := by
      rw [BitVec.and_assoc, show (0xFFFE : BitVec 32) &&& 0x01 = 0 from rfl]
      simp
    exact ⟨fun h _ => h hoff, fun h _ => h hopm⟩
  · unfold tick at h
    dsimp only at h
    rw [overflow_cr1, if_neg hopm] at h
    have hcr1 : t.cr1 = s.cr1 := by
      obtain ⟨_, rfl⟩ := update_eq h
      exact overflow_cr1 s
    refine ⟨fun _ h' => absurd h' hopm, fun _ hoff => ?_⟩
    rw [hcr1] at hoff
    exact absurd hoff hcen

/-- What keeps the counter idle and does not change `CR1` keeps a stopped timer stopped. -/
theorem Stopped.of_idle (hs : s.Stopped) (hcr1 : t.cr1 = s.cr1) (hidle : s.timer.Idle → t.timer.Idle) : t.Stopped := by
  intro hcen
  rw [hcr1] at hcen
  exact hidle (hs hcen)

theorem Stopped.freq (hs : s.Stopped) (h : Stm32Timer.freq env s = .ok t) : t.Stopped := by
  have hcr1 : t.cr1 = s.cr1 := by
    obtain ⟨_, rfl⟩ := freq_eq h
    rfl
  exact hs.of_idle hcr1 (freq_idle h)

theorem cen_eq (value : BitVec 64) : (value &&& 0x3FF).setWidth 32 &&& 0x01 = 0 ↔ value.getLsbD 0 = false := by
  have hbit : ((value &&& 0x3FF).setWidth 32).getLsbD 0 = value.getLsbD 0 := by simp
  rw [← hbit, ← Word.bitSet_eq _ (by decide), Word.bitSet, bne_eq_false_iff_eq]
  rfl

theorem Stopped.write_iff {offset : ℕ} {value : BitVec 64} (hlive : s.timer.Live) (hs : s.Stopped)
    (h : Stm32Timer.write env s offset value = .ok t) : t.Stopped ↔ s.KeepsStopped (env, .write offset value) := by
  have hkeeps : offset ≠ 0x00 → t.Stopped → (t.Stopped ↔ s.KeepsStopped (env, .write offset value)) :=
    fun hne ht => ⟨fun _ h0 => absurd h0 hne, fun _ => ht⟩
  unfold Stm32Timer.write at h
  split at h
  case h_1 =>
    have hcr1 : t.cr1 = (value &&& 0x3FF).setWidth 32 := by
      obtain ⟨_, rfl⟩ := update_eq h
      rfl
    unfold Stopped
    rw [hcr1]
    by_cases hcen : (value &&& 0x3FF).setWidth 32 &&& 0x01 = 0
    · have hiff := update_idle_iff (s := { s with cr1 := (value &&& 0x3FF).setWidth 32 }) hlive hcen h
      exact ⟨fun h' _ _ => hiff.1 (h' hcen), fun h' _ => hiff.2 (h' rfl ((cen_eq value).1 hcen))⟩
    · exact ⟨fun _ _ hoff => absurd ((cen_eq value).2 hoff) hcen, fun _ hoff => absurd hoff hcen⟩
  case h_4 =>
    cases h
    refine hkeeps (by decide) ?_
    unfold egrWrite
    dsimp only
    split
    · exact hs.of_idle rfl fun hidle => show (s.timer.setLimit env.now _ true).Idle from hidle.setLimit _ _
    · exact hs
  case h_8 =>
    cases h
    exact hkeeps (by decide) (hs.of_idle rfl fun hidle => hidle.setCount _)
  case h_9 =>
    exact hkeeps (by decide) (Stopped.freq (s := { s with psc := (value &&& 0xffff).setWidth 32 }) hs h)
  case h_10 =>
    cases h
    exact hkeeps (by decide) (hs.of_idle rfl fun hidle => show (s.timer.setLimit env.now _ true).Idle from hidle.setLimit _ _)
  case h_15 hne _ _ _ _ _ _ _ _ _ _ _ _ _ =>
    cases h
    exact hkeeps hne hs
  all_goals
    cases h
    exact hkeeps (by decide) hs

/-- **From a good state an operation leads to a good state exactly if it is one of these.** -/
theorem Stopped.step_iff {o : TimerEnv × Op} (hlive : s.timer.Live) (hs : s.Stopped) (h : step s o = .ok t) :
    t.Stopped ↔ s.KeepsStopped o := by
  obtain ⟨env, o⟩ := o
  cases o with
  | read offset =>
    rw [step_read h]
    exact ⟨fun _ => trivial, fun _ => hs⟩
  | write offset value => exact Stopped.write_iff hlive hs h
  | clkIrq level => exact ⟨fun _ => trivial, fun _ => hs.freq (step_clkIrq h)⟩
  | expire =>
    refine ⟨fun _ => trivial, fun _ hcen => ?_⟩
    have hcr1 : t.cr1 = s.cr1 := by
      cases h
      show (if _ then _ else _ : Stm32Timer).cr1 = _
      split <;> rfl
    rw [hcr1] at hcen
    cases (step_of_idle (hs hcen) env).1.symm.trans h
    exact hs hcen
  | tick =>
    rcases step_tick h with ⟨hbh, h⟩ | ⟨hbh, rfl⟩
    · -- a tick is scheduled only while the timer is enabled
      have hcen : s.cr1 &&& 0x01 ≠ 0 := by
        intro hoff
        rw [(hs hoff).bh] at hbh
        cases hbh
      rw [tick_stopped_iff (s := { s with timer := { s.timer with bh := false } }) hlive hcen h]
      exact ⟨fun h' _ hopm => ⟨(h' hopm).enabled, (h' hopm).timer⟩,
        fun h' hopm => ⟨(h' hbh hopm).1, (h' hbh hopm).2, rfl⟩⟩
    · exact ⟨fun _ h' => absurd h' hbh, fun _ => hs⟩

/-- **A timer that is not enabled is stopped** along a run, and no expiry or tick is left of it, exactly if the
    writes that clear `CEN` find a counter that can be stopped, and the ticks in one-pulse mode one that has
    stopped by itself. -/
theorem stopped_iff {periph : Periph} {l : List (TimerEnv × Op)} {u : Stm32Timer}
    (h : Machine.run step (init periph) l = .ok u) :
    (∀ t, Machine.Visits step (init periph) l t → t.cr1 &&& 0x01 = 0 →
      t.timer.Idle ∧ ∀ env, step t (env, .expire) = .ok t ∧ step t (env, .tick) = .ok t) ↔
      ∀ t o, Machine.Takes step (init periph) l t o → t.KeepsStopped o := by
  have hiff := Machine.visits_iff_takes (I := fun t => t.timer.Live) (P := Stopped) (fun _ _ _ => step_live)
    (fun _ _ _ hlive hs => hs.step_iff hlive) (Ptimer.live_of_disabled rfl) (fun _ => Ptimer.idle_init) h
  rw [← hiff]
  refine forall₂_congr fun t _ => ⟨fun h hcen => (h hcen).1, fun h hcen => ⟨h hcen, step_of_idle (h hcen)⟩⟩

/-! ## TIM2 in use -/

/-- The clock of TIM2 is switched on. -/
theorem exists_tim2On : ∃ rcc, Stm32Rcc.Reachable zeroHost 8000000 32768 rcc ∧
    rcc.getPeriphFreq .TIM2 = .ok 8000000 := by
  have hw : (RccSpec.powerOn zeroHost 8000000 32768).write zeroHost 0x1c 0x1 4 = some _ := rfl
  have hinv := (RccSpec.inv_powerOn 32768).step (o := .write 0x1c 0x1 4) hw
  obtain ⟨-, -, rcc, -, -, -, hrcc, href⟩ := exists_write hw
  refine ⟨rcc, hrcc, congrArg Except.ok ?_⟩
  rw [href.getOutputFreq (show 27 < CLK_COUNT by decide)]
  refine BitVec.eq_of_toNat_eq ?_
  refine (RccSpec.freq_periph href.ordered (p := .TIM2) rfl (by decide) rfl).trans ?_
  refine (RccSpec.freq_pclk1 href.ordered hinv.wf).trans ?_
  rw [RccSpec.freq_hclk href.ordered hinv.wf,
    RccSpec.freq_sysclk href.ordered hinv.wf rfl (by unfold PathEnabled; decide) (by decide)]
  rfl

/-- TIM2 with the control register `cr1`, counting 1000 periods of a clock of
    16 MHz. -/
def counting (cr1 : BitVec 32) (mode : PtimerMode) : Stm32Timer :=
  { init .TIM2 with
    arr := 1000
    cr1
    timer := ⟨mode, 1000, 1000, 0x80000000, 62, 0, 62500, false, some 62500⟩ }

theorem run_counting {rcc : Stm32Rcc} (hf : rcc.getPeriphFreq .TIM2 = .ok 8000000) :
    Machine.run step (init .TIM2) [(⟨rcc, 0⟩, .write 0x2c 1000), (⟨rcc, 0⟩, .write 0x00 0x01)] =
      .ok (counting 0x01 .oneshot) ∧
    Machine.run step (init .TIM2) [(⟨rcc, 0⟩, .write 0x2c 1000), (⟨rcc, 0⟩, .write 0x00 0x05)] =
      .ok (counting 0x05 .periodic) := by
  constructor
  all_goals
    refine Machine.run_cons_ok.2 ⟨_, rfl, Machine.run_cons_ok.2 ⟨_, ?_, rfl⟩⟩
    show update ⟨rcc, 0⟩ _ = _
    unfold update freq
    dsimp only [init]
    rw [hf]
    with_unfolding_all rfl

/-- The end of the countdown, before the tick that it schedules. -/
def expired (cr1 : BitVec 32) (mode : PtimerMode) : Stm32Timer :=
  let s := counting cr1 mode
  { s with timer := { s.timer with timer := none }.tick }

theorem step_counting (cr1 : BitVec 32) (mode : PtimerMode) :
    step (counting cr1 mode) (env, .expire) = .ok (expired cr1 mode) := rfl

/-- The tick that follows in one-pulse mode: the counter goes on. -/
theorem step_expired : ∃ u, step (expired 0x05 .periodic) (env, .tick) = .ok u ∧ u.cr1 = 0x04 ∧
    u.timer.enabled ≠ .disabled := by
  rw [step_tick_of_scheduled rfl, tick_onePulse (by decide)]
  refine ⟨_, rfl, rfl, ?_⟩
  obtain ⟨mode, ho⟩ : ∃ mode, overflow env
    { expired 0x05 .periodic with timer := { (expired 0x05 .periodic).timer with bh := false } } = _ := overflow_eq _
  dsimp only
  rw [ho, Ptimer.setCount, Ptimer.restart_enabled (by decide)]
  decide

/-- TIM2 in its second period. -/
def countingAgain : Stm32Timer :=
  { counting 0x01 .oneshot with
    timer := ⟨.oneshot, 1000, 1000, 0x80000000, 62, 62500, 125000, false, some 125000⟩
    irq := true
    itr := true
    sr := 1 }

/-- The timer is disabled in its second period. -/
theorem stopped_iff_disabled : ∃ rcc u, Stm32Rcc.Reachable zeroHost 8000000 32768 rcc ∧
    Machine.run step (init .TIM2) [(⟨rcc, 0⟩, .write 0x2c 1000), (⟨rcc, 0⟩, .write 0x00 0x01),
      (⟨rcc, 62500⟩, .expire), (⟨rcc, 62500⟩, .tick), (⟨rcc, 100000⟩, .write 0x00 0x00)] = .ok u ∧
    u.cr1 &&& 0x01 = 0 ∧ u.timer.Idle := by
  obtain ⟨rcc, hrcc, hf⟩ := exists_tim2On
  have htick : step (expired 0x01 .oneshot) (⟨rcc, 62500⟩, .tick) = .ok countingAgain := by
    have hover : overflow ⟨rcc, 62500⟩
        { expired 0x01 .oneshot with timer := { (expired 0x01 .oneshot).timer with bh := false } } =
        { countingAgain with timer := ⟨.disabled, 1000, 1000, 0x80000000, 62, 0, 62500, false, none⟩ } := by
      with_unfolding_all rfl
    rw [step_tick_of_scheduled rfl, tick, hover, if_neg (by decide)]
    unfold update freq
    dsimp only [countingAgain, counting, init]
    rw [hf]
    with_unfolding_all rfl
  obtain ⟨u, hu⟩ : ∃ u, step countingAgain (⟨rcc, 100000⟩, .write 0x00 0x00) = .ok u := by
    refine ⟨{ countingAgain with
      cr1 := 0
      timer := ⟨.disabled, 1000, 1000, 0x80000000, 62, 100000, 162500, false, none⟩ }, ?_⟩
    show update ⟨rcc, 100000⟩ _ = _
    unfold update freq
    dsimp only [countingAgain, counting, init]
    rw [hf]
    with_unfolding_all rfl
  have hrest : Machine.run step (counting 0x01 .oneshot) [(⟨rcc, 62500⟩, .expire), (⟨rcc, 62500⟩, .tick),
      (⟨rcc, 100000⟩, .write 0x00 0x00)] = .ok u :=
    Machine.run_cons_ok.2 ⟨_, step_counting _ _, Machine.run_cons_ok.2 ⟨_, htick,
      Machine.run_cons_ok.2 ⟨_, hu, Machine.run_nil u⟩⟩⟩
  have hrun := Machine.run_append_ok.2 ⟨_, (run_counting hf).1, hrest⟩
  have hcen : u.cr1 &&& 0x01 = 0 := by
    obtain ⟨_, rfl⟩ := update_eq (s := { countingAgain with cr1 := 0 }) hu
    exact BitVec.zero_and
  refine ⟨rcc, u, hrcc, hrun, hcen, ((stopped_iff hrun).2 (fun t o ho => ?_) u ⟨_, [], by simp, hrun⟩ hcen).1⟩
  rcases Machine.takes_cons ho with ⟨-, rfl⟩ | ⟨t₁, ht₁, ho⟩
  · exact fun h0 => absurd h0 (by decide)
  rcases Machine.takes_cons ho with ⟨-, rfl⟩ | ⟨t₂, ht₂, ho⟩
  · exact fun _ hoff => absurd hoff (by decide)
  have hcount := Machine.run_cons_ok.2 ⟨t₁, ht₁, Machine.run_cons_ok.2 ⟨t₂, ht₂, Machine.run_nil t₂⟩⟩
  cases (run_counting hf).1.symm.trans hcount
  rcases Machine.takes_cons ho with ⟨-, rfl⟩ | ⟨t₃, ht₃, ho⟩
  · trivial
  cases ht₃
  rcases Machine.takes_cons ho with ⟨rfl, rfl⟩ | ⟨t₄, ht₄, ho⟩
  · exact fun _ hopm => absurd rfl hopm
  cases htick.symm.trans ht₄
  rcases Machine.takes_cons ho with ⟨rfl, rfl⟩ | ⟨t₅, -, l₁, l₂, hl, -⟩
  · refine fun _ _ => ⟨⟨rfl, fun hd => absurd hd (by decide)⟩, fun _ f hf' => ?_⟩
    cases hf.symm.trans hf'
    decide
  · simp at hl

/-- In one-pulse mode the tick clears `CEN`, and the counter goes on. -/
theorem not_stopped_onePulse : ∃ rcc u, Stm32Rcc.Reachable zeroHost 8000000 32768 rcc ∧
    Machine.run step (init .TIM2) [(⟨rcc, 0⟩, .write 0x2c 1000), (⟨rcc, 0⟩, .write 0x00 0x05),
      (⟨rcc, 62500⟩, .expire), (⟨rcc, 62500⟩, .tick)] = .ok u ∧
    u.cr1 &&& 0x01 = 0 ∧ u.timer.enabled ≠ .disabled := by
  obtain ⟨rcc, hrcc, hf⟩ := exists_tim2On
  obtain ⟨u, hu, hcr1, hon⟩ := @step_expired ⟨rcc, 62500⟩
  have hrest : Machine.run step (counting 0x05 .periodic) [(⟨rcc, 62500⟩, .expire),
      (⟨rcc, 62500⟩, .tick)] = .ok u :=
    Machine.run_cons_ok.2 ⟨_, step_counting _ _, Machine.run_cons_ok.2 ⟨_, hu, Machine.run_nil u⟩⟩
  have hrun := Machine.run_append_ok.2 ⟨_, (run_counting hf).2, hrest⟩
  exact ⟨rcc, u, hrcc, hrun, by rw [hcr1]; decide, hon⟩

end Stm32Timer

end Bluepill
