/-
  No interrupt of a raised line is lost.

  An interrupt that is triggered by the level of its line is pending or active as long as the
  line is raised and the interrupt enabled (`Served`): the operations that make it neither of
  them look at the line.  The exceptions are writes that clear the pending bit, and writes that
  make a raised interrupt level-triggered (`Serves`).

  `interrupt_not_lost`: the interrupt is pending or active then, and as soon as it can preempt the
  running one the CPU gets a vector, for an interrupt that is at least as urgent.
-/
import Bluepill.Nvic.Active

namespace Bluepill

open Machine

namespace Gic

variable {s t : Gic} {l : List ℕ} {irq : ℕ}

/-- Raised lines are external, and their interrupts pending or among the active ones `l`. -/
structure Served (s : Gic) (l : List ℕ) : Prop where
  external : ∀ irq, (s.irqState irq).level = true → GIC_INTERNAL ≤ irq ∧ irq < numIrq
  pending : ∀ irq, s.raised irq = true → (s.irqState irq).pending = true ∨ irq ∈ l

/-- An action that leaves a raised interrupt pending, unless it is one of `l`. -/
def Act.serves (s : Gic) (l : List ℕ) : Act → Bool
  | .clearPending irq => !s.raised irq || irq ∈ l
  | .configure irq _ edge => edge = (s.irqState irq).edgeTrigger || !(s.irqState irq).level
  | _ => true

theorem Served.plain {a : Act} (h : s.Served l) (hplain : a.plain = true) (hserves : a.serves s l = true)
    (ht : act s a = .ok t) : t.Served l := by
  have heffect := irqState_act hplain ht
  refine ⟨fun irq hlevel => ?_, fun irq hraised => ?_⟩
  · rw [heffect] at hlevel
    rcases Act.effect_level hlevel with hlevel | ⟨n, rfl, rfl⟩
    · exact h.external irq hlevel
    · exact ⟨Nat.le_add_left _ _, by simpa [Act.plain] using hplain⟩
  · have hold := h.pending irq
    simp only [raised] at hraised hold
    rw [heffect] at hraised ⊢
    cases a with
    | line n level =>
      simp only [Act.effect] at hraised ⊢
      split_ifs at hraised ⊢ with hirq hlevel
      · simp at hraised
        simp [hraised]
      · simp at hraised
      · exact hold hraised
    | pend n | setPending n =>
      simp only [Act.effect] at hraised ⊢
      split_ifs at hraised ⊢
      · exact .inl rfl
      · exact hold hraised
    | setEnabled n =>
      simp only [Act.effect] at hraised ⊢
      split_ifs at hraised ⊢
      · simp at hraised
        simp [hraised]
      · exact hold hraised
    | clearEnabled n =>
      simp only [Act.effect] at hraised ⊢
      split_ifs at hraised ⊢
      · simp at hraised
      · exact hold hraised
    | clearPending n =>
      simp only [Act.effect] at hraised ⊢
      split_ifs at hraised ⊢ with hirq
      · subst hirq
        have hraised' : s.raised irq = true := hraised
        exact .inr (by simpa [Act.serves, hraised'] using hserves)
      · exact hold hraised
    | configure n model edge =>
      simp only [Act.effect] at hraised ⊢
      split_ifs at hraised ⊢ with hirq
      · subst hirq
        simp at hraised
        refine hold ?_
        simpa [Act.serves, hraised] using hserves
      · exact hold hraised
    | enable n on =>
      simp only [Act.effect] at hraised ⊢
      split_ifs at hraised ⊢ with hirq
      · subst hirq
        simp at hraised
        have hirq : irq < GIC_INTERNAL := lt_trans (by simpa [Act.plain] using hplain) (by decide)
        exact absurd (h.external irq hraised.2).1 (not_le.2 hirq)
      · exact hold hraised
    | setPriority n val | update => exact hold hraised
    | acknowledge | complete n | reset => cases hplain

theorem Served.run {acts : List Act} (h : s.Served l) (hplain : ∀ a ∈ acts, a.plain = true)
    (hserves : Meets act (fun s a => a.serves s l = true) s acts) (ht : run act s acts = .ok t) :
    t.Served l := by
  refine history_inv (P := fun _ s => s.Served l) (C := fun s a => a.plain = true ∧ a.serves s l = true)
    ?_ h ?_ ht
  · rintro - s a t hs ⟨hplain, hserves⟩ ht
    exact hs.plain hplain hserves ht
  · exact fun s a hsa => ⟨hplain a hsa.mem, hserves.takes s a hsa⟩

/-- The interrupt that is taken is active. -/
theorem Served.acknowledge (h : s.Served l) (ht : act s .acknowledge = .ok t) :
    t.Served (s.currentPending :: l) := by
  have hstate := irqState_acknowledge ht
  refine ⟨fun irq hlevel => ?_, fun irq hraised => ?_⟩
  · rw [hstate] at hlevel
    exact h.external irq (by split at hlevel <;> exact hlevel)
  · by_cases hirq : irq = s.currentPending
    · exact .inr (hirq ▸ List.mem_cons_self)
    · rw [raised, hstate, if_neg hirq] at hraised
      rw [hstate, if_neg hirq]
      exact (h.pending irq hraised).imp_right (List.mem_cons_of_mem _)

/-- The interrupt that is completed is pending again if its line is raised. -/
theorem Served.complete (h : s.Served l) (hstack : s.Stack l) (ht : s.completeIrq irq = .ok t) :
    t.Served (l.erase irq) := by
  rcases irqState_complete ht with ⟨hno, rfl⟩ | hstate
  · have hnot : irq ∉ l := by
      intro hirq
      rcases hno with hge | hnone
      · exact absurd (hstack.lt irq hirq) (not_lt.2 hge)
      · have hlinked := hstack.linked
        rw [hnone, link_none] at hlinked
        cases hlinked
        cases hirq
    rw [List.erase_of_not_mem hnot]
    exact h
  · refine ⟨fun x hlevel => ?_, fun x hraised => ?_⟩
    · rw [hstate] at hlevel
      exact h.external x (by split at hlevel <;> exact hlevel)
    · have hraised' : s.raised x = true := by
        rw [raised, hstate] at hraised
        split at hraised <;> exact hraised
      rw [hstate]
      split
      · exact .inl (by simp [hraised'])
      · rename_i hx
        exact (h.pending x hraised').imp_right (List.mem_erase_of_ne hx).2

/-- The interrupt that would be acknowledged is at least as urgent as every external one that is ready. -/
def Leads (s : Gic) : Prop := ∀ irq, GIC_INTERNAL ≤ irq → irq < numIrq → s.ready irq = true →
  s.currentPending < numIrq ∧ s.getPriority s.currentPending ≤ s.getPriority irq

theorem leads_update (h : s.On) : s.update.Leads := by
  intro irq _ hirq hready
  rcases (settled_update s).cases h.update with ⟨hfirst, -⟩ | ⟨hnone, -⟩
  · exact ⟨hfirst.lt, hfirst.least irq hirq hready⟩
  · rw [hnone irq hirq] at hready
    cases hready

theorem leads_reset (s : Gic) : s.reset.Leads := by
  intro irq _ _ hready
  simp [ready, reset] at hready

end Gic

namespace Nvic

open Gic

variable {s t : Nvic} {l : List ℕ}

/-- Each action of the operation leaves a raised interrupt pending, unless it is active. -/
def Serves (p : Nvic × List ℕ) (o : NvicEnv × Op) : Prop :=
  Meets act (fun g a => a.serves g p.2 = true) p.1.gic (p.1.acts o.2)

instance (p : Nvic × List ℕ) (o : NvicEnv × Op) : Decidable (Serves p o) :=
  inferInstanceAs (Decidable (Meets _ _ _ _))

theorem served_step {o : NvicEnv × Op} (h : s.gic.Served l) (hstack : s.gic.Stack l) (hserves : Serves (s, l) o)
    (ht : step s o = .ok t) : t.gic.Served (s.active l o.2) := by
  have hrun := step_acts ht
  obtain ⟨env, o⟩ := o
  rcases plain_acts s o with rfl | ⟨irq, rfl⟩ | rfl | ⟨hplain, hsame⟩
  · obtain ⟨g, hg, hrun⟩ := run_cons_ok.1 hrun
    cases hrun
    exact h.acknowledge hg
  · obtain ⟨g, hg, hrun⟩ := run_cons_ok.1 hrun
    cases hrun
    exact h.complete hstack hg
  · cases ht
    refine ⟨fun irq hlevel => ?_, fun irq hraised => ?_⟩
    · cases hlevel
    · simp [raised, Nvic.reset, Gic.reset] at hraised
  · rw [hsame]
    exact h.run hplain hserves hrun

/-- The System Handler Control does not concern the external interrupts. -/
theorem leads_writeShcsr {value : BitVec 32} (h : s.gic.Leads) : (s.writeShcsr value).gic.Leads := by
  intro irq hext hirq hready
  refine h irq hext hirq ?_
  have hne : irq ≠ ARMV7M_EXCP_MEM ∧ irq ≠ ARMV7M_EXCP_BUS ∧ irq ≠ ARMV7M_EXCP_USAGE := by
    have hext' : 32 ≤ irq := hext
    refine ⟨?_, ?_, ?_⟩ <;> rintro rfl <;> exact absurd hext' (by decide)
  simpa [ready, writeShcsr, Gic.modIrq, hne] using hready

theorem leads_step {o : NvicEnv × Op} (hon : s.gic.On) (h : s.gic.Leads) (ht : step s o = .ok t) :
    t.gic.Leads := by
  refine step_keeps (P := Leads) ?_ ?_ ?_ ?_ hon h ht
  · exact fun _ => leads_update
  · exact fun _ _ hs => hs
  · exact leads_reset
  · exact fun _ _ => leads_writeShcsr h

end Nvic

open Nvic Gic

/-- **A raised interrupt that is level-triggered is pending or active, and taken in its turn**: once it has a lesser priority
    value than the running one, the CPU gets a vector, and no less urgent interrupt with it. -/
theorem interrupt_not_lost {l : List (NvicEnv × Nvic.Op)} {s : Nvic} {a : List ℕ} {irq : ℕ}
    (h : run stepActive (Nvic.start, []) l = .ok (s, a))
    (hl : ∀ p o, Takes stepActive (Nvic.start, []) l p o → Leaves p o ∧ Serves p o)
    (hraised : s.gic.raised irq = true) (hactive : irq ∉ a) :
    (s.gic.irqState irq).pending = true ∧
      (s.gic.getPriority irq < s.gic.runningPriority → ∃ v t, s.acknowledgeIrq = .ok (v, t) ∧
        t.gic.getPriority t.gic.runningIrq ≤ s.gic.getPriority irq) := by
  have hinv : s.gic.On ∧ s.gic.Coherent ∧ s.gic.Leads ∧ s.gic.Stack a ∧ s.gic.Served a := by
    refine history_inv (P := fun _ (p : Nvic × List ℕ) => p.1.gic.On ∧ p.1.gic.Coherent ∧ p.1.gic.Leads ∧
      p.1.gic.Stack p.2 ∧ p.1.gic.Served p.2) ?_ ?_ hl h
    · rintro - ⟨s, a⟩ o u ⟨hon, hcoh, hleads, hstack, hserved⟩ ⟨hleaves, hserves⟩ hu
      obtain ⟨t, ht, hu⟩ := bind_eq_ok.1 hu
      cases hu
      exact ⟨On.step hon ht, coherent_step hon hcoh ht, leads_step hon hleads ht,
        stack_step hstack hcoh hleaves ht, served_step hserved hstack hserves ht⟩
    · refine ⟨start_on, .inl ⟨rfl, rfl⟩, leads_reset _, start_stack, fun irq hlevel => ?_, fun irq hraised => ?_⟩
      · cases hlevel
      · simp [raised, Nvic.start, Nvic.reset, Gic.reset] at hraised
  obtain ⟨-, hcoh, hleads, -, hserved⟩ := hinv
  have hpending := (hserved.pending irq hraised).resolve_right hactive
  have hstate : (s.gic.irqState irq).enabled = true ∧ (s.gic.irqState irq).level = true := by
    simp [raised] at hraised
    exact ⟨hraised.1.2, hraised.2⟩
  refine ⟨hpending, fun hlt => ?_⟩
  obtain ⟨hext, hirq⟩ := hserved.external irq hstate.2
  have hready : s.gic.ready irq = true := by simp [ready, hstate, hpending]
  obtain ⟨hcur, hle⟩ := hleads irq hext hirq hready
  have hreq : s.gic.parentIrq = true := by
    rcases hcoh with ⟨hnone, -⟩ | ⟨-, hreq⟩
    · rw [hnone] at hcur
      exact absurd hcur (by decide)
    · rw [hreq, decide_eq_true_iff]
      exact hle.trans_lt hlt
  obtain ⟨v, t, ht⟩ := exists_acknowledgeIrq.2 (hcoh.acknowledge_iff.2 hreq)
  obtain ⟨hrun, hprio⟩ := acknowledge_running (acknowledgeIrq_ok ht).1
  refine ⟨v, t, ht, ?_⟩
  rw [hrun, hprio]
  exact hle

/-- The line of `USART1` is raised while the interrupt of `TIM2` runs with a lesser priority value, which then ends. -/
def usart1Waits : List (NvicEnv × Nvic.Op) :=
  [.write 0x104 0x20 .word, .write 0x100 0x10000000 .word, .write 0x425 0x10 .byte, .setIrq TIM2_IRQn true,
    .acknowledge, .setIrq STM32_UART1_IRQ true, .setIrq TIM2_IRQn false, .complete 44].map (⟨0, .init⟩, ·)

theorem interrupt_not_lost_usart1 : ∃ s, run stepActive (Nvic.start, []) usart1Waits = .ok (s, []) ∧
    s.gic.raised 69 = true ∧ (s.gic.irqState 69).pending = true ∧
    ∃ v t, s.acknowledgeIrq = .ok (v, t) ∧ t.gic.getPriority t.gic.runningIrq ≤ 16 := by
  have hmeets : Meets stepActive (fun p o => Leaves p o ∧ Serves p o) (Nvic.start, []) usart1Waits := by
    decide +kernel
  have hrun : ∃ p, run stepActive (Nvic.start, []) usart1Waits = .ok p ∧ p.2 = [] ∧
      p.1.gic.raised 69 = true ∧ p.1.gic.getPriority 69 = 16 ∧ p.1.gic.runningPriority = 0x100 := by
    rw [← post_ok]
    decide +kernel
  obtain ⟨⟨s, a⟩, hs, rfl, hraised, hprio, hrunning⟩ := hrun
  obtain ⟨hpending, htaken⟩ := interrupt_not_lost hs hmeets.takes hraised (by decide)
  obtain ⟨v, t, ht, hle⟩ := htaken (by rw [hprio, hrunning]; decide)
  exact ⟨s, hs, hraised, hpending, v, t, ht, hprio ▸ hle⟩

end Bluepill
