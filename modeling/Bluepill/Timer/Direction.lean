/-
  The direction of a timer in the center-aligned modes.

  A tick should turn the counter round in these modes.  It does, and then `update`
  sets the direction from `CR1` again, which is always up in these modes
  (`tick_countMode`).  So the direction after some ticks is right only if it should
  be up then (`direction_alternates_iff`).
-/
import Bluepill.Timer.Stop

namespace Bluepill

/-- The direction after `n` turns. -/
def CountMode.turned (m : CountMode) (n : ℕ) : CountMode := if Even n then m else m.toggle

namespace Stm32Timer

variable {env : TimerEnv} {s t u : Stm32Timer}

/-- **A tick of a center-aligned timer leaves it counting up.** -/
theorem tick_countMode (hcms : s.cr1 &&& 0x60 ≠ 0) (hopm : s.cr1 &&& 0x04 = 0)
    (h : tick env s = .ok t) : t.cr1 = s.cr1 ∧ t.countMode = .up := by
  obtain ⟨mode, ho⟩ : ∃ mode, overflow env s = _ := overflow_eq s
  unfold tick at h
  rw [ho] at h
  dsimp only at h
  rw [if_neg (not_not_intro hopm)] at h
  obtain ⟨timer, rfl⟩ := update_eq h
  exact ⟨rfl, if_pos hcms⟩

/-- After `n` ticks from `s` the control register is the same, and the direction is up if there
    was a tick. -/
structure Turned (s : Stm32Timer) (n : ℕ) (t : Stm32Timer) : Prop where
  cr1 : t.cr1 = s.cr1
  countMode : t.countMode = if n = 0 then s.countMode else .up

theorem Turned.zero (s : Stm32Timer) : Turned s 0 s := ⟨rfl, rfl⟩

theorem Turned.tick {n : ℕ} (hcms : s.cr1 &&& 0x60 ≠ 0) (hopm : s.cr1 &&& 0x04 = 0)
    (h : Turned s n t) (hu : Stm32Timer.tick env t = .ok u) : Turned s (n + 1) u := by
  rw [← h.cr1] at hcms hopm
  obtain ⟨hcr1, hmode⟩ := tick_countMode hcms hopm hu
  exact ⟨hcr1.trans h.cr1, hmode⟩

/-- What does not change the registers. -/
theorem Turned.timer {n : ℕ} (h : Turned s n t) (timer : Ptimer) : Turned s n { t with timer } :=
  ⟨h.cr1, h.countMode⟩

theorem Turned.iff {n : ℕ} (h : Turned s n u) : u.countMode = s.countMode.turned n ↔
    n = 0 ∨ (s.countMode = .up ∧ Even n) ∨ (s.countMode = .down ∧ Odd n) := by
  rw [h.countMode]
  unfold CountMode.turned
  rcases Nat.eq_zero_or_pos n with rfl | hn
  · simp
  have hne : n ≠ 0 := by omega
  rw [if_neg hne]
  rcases Nat.even_or_odd n with he | ho
  · have hodd : ¬ Odd n := Nat.not_odd_iff_even.2 he
    rw [if_pos he]
    simp [hne, he, hodd, eq_comm]
  · have heven : ¬ Even n := Nat.not_even_iff_odd.2 ho
    rw [if_neg heven]
    cases s.countMode <;> simp [hne, ho, heven, CountMode.toggle]

/-- The operation does not write to a register. -/
def Op.isWrite : Op → Bool
  | .write _ _ => true
  | _ => false

/-- The tick an operation performs: it must have been scheduled. -/
def ticked (s : Stm32Timer) (o : TimerEnv × Op) : List TimerEnv :=
  match o.2 with
  | .tick => if s.timer.bh then [o.1] else []
  | _ => []

theorem Turned.step {e : List TimerEnv} {o : TimerEnv × Op} (hcms : s.cr1 &&& 0x60 ≠ 0)
    (hopm : s.cr1 &&& 0x04 = 0) (h : Turned s e.length t) (ho : o.2.isWrite = false)
    (hu : Stm32Timer.step t o = .ok u) : Turned s (e ++ ticked t o).length u := by
  obtain ⟨env, op⟩ := o
  cases op with
  | read offset =>
    obtain rfl := step_read hu
    rw [show ticked u (env, .read offset) = [] from rfl, List.append_nil]
    exact h
  | write offset value => cases ho
  | clkIrq level =>
    obtain ⟨timer, rfl⟩ := freq_eq (step_clkIrq hu)
    rw [show ticked t (env, .clkIrq level) = [] from rfl, List.append_nil]
    exact h.timer timer
  | expire =>
    cases hu
    rw [show ticked t (env, .expire) = [] from rfl, List.append_nil]
    split
    · exact h.timer _
    · exact h
  | tick =>
    rcases step_tick hu with ⟨hbh, hu⟩ | ⟨hbh, rfl⟩
    · have hticked : ticked t (env, .tick) = [env] := if_pos hbh
      rw [hticked, List.length_append]
      exact (h.timer _).tick hcms hopm hu
    · have hticked : ticked u (env, .tick) = [] := if_neg hbh
      rw [hticked, List.append_nil]
      exact h

/-- **In a center-aligned mode the direction alternates** exactly if it should be up after the
    ticks, or there was none.  The ticks are calls in a row, or those that occur in a run of the
    timer without writes to its registers. -/
theorem direction_alternates_iff (s : Stm32Timer) (hcms : s.cr1 &&& 0x60 ≠ 0)
    (hopm : s.cr1 &&& 0x04 = 0) :
    (∀ (envs : List TimerEnv) (u : Stm32Timer),
      Machine.run (fun t env => tick env t) s envs = .ok u →
      (u.countMode = s.countMode.turned envs.length ↔ envs.length = 0 ∨
        (s.countMode = .up ∧ Even envs.length) ∨ (s.countMode = .down ∧ Odd envs.length))) ∧
    ∀ (l : List (TimerEnv × Op)) (u : Stm32Timer), (∀ o ∈ l, o.2.isWrite = false) →
      Machine.run step s l = .ok u →
      let n := (Machine.trace step ticked s l).length
      (u.countMode = s.countMode.turned n ↔ n = 0 ∨ (s.countMode = .up ∧ Even n) ∨
        (s.countMode = .down ∧ Odd n)) := by
  constructor
  · intro envs u hr
    have hturned := Machine.history_inv (P := fun envs u => Turned s envs.length u)
      (C := fun _ _ => True) (fun envs _ env _ h _ hu => by
        rw [List.length_append]
        exact h.tick hcms hopm hu) (Turned.zero s) (fun _ _ _ => trivial) hr
    exact hturned.iff
  · intro l u hl hr
    have hturned := Machine.trace_inv (P := fun e u => Turned s e.length u)
      (C := fun _ o => o.2.isWrite = false) (fun _ _ _ _ h ho hu => h.step hcms hopm ho hu)
      (Turned.zero s) (fun t o ho => hl o ho.mem) hr
    exact hturned.iff

/-! ## TIM2 in a center-aligned mode -/

theorem exists_update {rcc : Stm32Rcc} (hf : rcc.getPeriphFreq s.periph = .ok 8000000)
    (hpsc : s.psc = 0) (hcen : s.cr1 &&& 0x01 ≠ 0) (now : BitVec 64) :
    ∃ t, update ⟨rcc, now⟩ s = .ok t := by
  have hfreq : ∃ t, freq ⟨rcc, now⟩ s = .ok t := by
    unfold freq
    rw [hf, hpsc]
    exact ⟨_, rfl⟩
  obtain ⟨t, ht⟩ := hfreq
  obtain ⟨timer, rfl⟩ := freq_eq ht
  unfold update
  rw [ht]
  exact ⟨_, if_pos hcen⟩

theorem exists_tick {rcc : Stm32Rcc} (hf : rcc.getPeriphFreq s.periph = .ok 8000000)
    (hpsc : s.psc = 0) (hcen : s.cr1 &&& 0x01 ≠ 0) (hopm : s.cr1 &&& 0x04 = 0) (now : BitVec 64) :
    ∃ t, tick ⟨rcc, now⟩ s = .ok t := by
  obtain ⟨mode, ho⟩ : ∃ mode, overflow ⟨rcc, now⟩ s = _ := overflow_eq s
  unfold tick
  rw [ho]
  dsimp only
  rw [if_neg (not_not_intro hopm)]
  refine exists_update ?_ ?_ ?_ now
  · exact hf
  · exact hpsc
  · exact hcen

/-- TIM2 counting in the third center-aligned mode. -/
theorem run_centerAligned {rcc : Stm32Rcc} (hf : rcc.getPeriphFreq .TIM2 = .ok 8000000) :
    Machine.run step (init .TIM2) [(⟨rcc, 0⟩, .write 0x2c 1000), (⟨rcc, 0⟩, .write 0x00 0x61)] =
      .ok (counting 0x61 .oneshot) := by
  refine Machine.run_cons_ok.2 ⟨_, rfl, Machine.run_cons_ok.2 ⟨_, ?_, rfl⟩⟩
  show update ⟨rcc, 0⟩ _ = _
  unfold update freq
  dsimp only [init]
  rw [hf]
  with_unfolding_all rfl

/-- After two ticks it counts up again. -/
theorem direction_alternates_twice : ∃ rcc u, Stm32Rcc.Reachable zeroHost 8000000 32768 rcc ∧
    Machine.run (fun t env => tick env t) (counting 0x61 .oneshot) [⟨rcc, 62500⟩, ⟨rcc, 125000⟩] =
      .ok u ∧ u.countMode = (counting 0x61 .oneshot).countMode.turned 2 := by
  obtain ⟨rcc, hrcc, hf⟩ := exists_tim2On
  obtain ⟨t, ht⟩ := exists_tick (s := counting 0x61 .oneshot) hf rfl (by decide) (by decide) 62500
  have hkept : t.periph = .TIM2 ∧ t.psc = 0 := by obtain ⟨_, _, _, rfl⟩ := tick_eq ht; exact ⟨rfl, rfl⟩
  have hcr1 : t.cr1 = 0x61 := (tick_countMode (by decide) (by decide) ht).1
  obtain ⟨u, hu⟩ := exists_tick (s := t) (hkept.1 ▸ hf) hkept.2 (by rw [hcr1]; decide)
    (by rw [hcr1]; decide) 125000
  have hrun : Machine.run (fun t env => tick env t) (counting 0x61 .oneshot)
      [⟨rcc, 62500⟩, ⟨rcc, 125000⟩] = .ok u :=
    Machine.run_cons_ok.2 ⟨t, ht, Machine.run_cons_ok.2 ⟨u, hu, Machine.run_nil u⟩⟩
  have halt := (direction_alternates_iff _ (by decide) (by decide)).1 _ u hrun
  exact ⟨rcc, u, hrcc, hrun, halt.2 (.inr (.inl ⟨rfl, even_two⟩))⟩

/-- After one tick it should count down, and counts up. -/
theorem not_direction_alternates : ∃ rcc u, Stm32Rcc.Reachable zeroHost 8000000 32768 rcc ∧
    Machine.run step (init .TIM2) [(⟨rcc, 0⟩, .write 0x2c 1000), (⟨rcc, 0⟩, .write 0x00 0x61)] =
      .ok (counting 0x61 .oneshot) ∧
    Machine.run step (counting 0x61 .oneshot) [(⟨rcc, 62500⟩, .expire), (⟨rcc, 62500⟩, .tick)] = .ok u ∧
    (counting 0x61 .oneshot).countMode = .up ∧ u.countMode = .up := by
  obtain ⟨rcc, hrcc, hf⟩ := exists_tim2On
  obtain ⟨u, hu⟩ := exists_tick (s := { expired 0x61 .oneshot with
    timer := { (expired 0x61 .oneshot).timer with bh := false } }) hf rfl (by decide) (by decide) 62500
  have hstep : step (expired 0x61 .oneshot) (⟨rcc, 62500⟩, .tick) = .ok u :=
    (step_tick_of_scheduled rfl).trans hu
  have hrun : Machine.run step (counting 0x61 .oneshot) [(⟨rcc, 62500⟩, .expire),
      (⟨rcc, 62500⟩, .tick)] = .ok u :=
    Machine.run_cons_ok.2 ⟨_, step_counting 0x61 .oneshot,
      Machine.run_cons_ok.2 ⟨u, hstep, Machine.run_nil u⟩⟩
  exact ⟨rcc, u, hrcc, run_centerAligned hf, hrun, rfl, (tick_countMode (by decide) (by decide) hu).2⟩

end Stm32Timer

end Bluepill
