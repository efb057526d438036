/-
  `NVIC_Init` of the firmware library (`misc.c`) on the emulated NVIC.

  The library splits a priority as the field `PRIGROUP` of `AIRCR` says.  The emulated register
  always reads `PRIGROUP` as `0`, which a write does not change; the library takes that for a
  split into seven bits, and the shifts that follow leave nothing of the two parts.  So all
  interrupts that it sets up have the priority `0`, whatever it is asked for, and the interrupts
  of devices do not preempt each other (`devices_not_nested`).
-/
import Bluepill.Nvic.Active

namespace Bluepill

open Machine

namespace Firmware

/-- `NVIC_InitTypeDef`. -/
structure NvicInit where
  channel : BitVec 8
  preemptionPriority : BitVec 8
  subPriority : BitVec 8
  cmd : Bool

/-- A shift of the core by a register takes the bottom byte of it. -/
def lsl (x n : BitVec 32) : BitVec 32 := x <<< (n.toNat % 256)

def lsr (x n : BitVec 32) : BitVec 32 := x >>> (n.toNat % 256)

/-- The priority that `NVIC_Init` computes, from a value of `AIRCR`. -/
def initPriority (aircr : BitVec 32) (init : NvicInit) : BitVec 8 :=
  let tmppriority := (0x700#32 - (aircr &&& 0x700#32)) >>> 8
  let tmppre := 4#32 - tmppriority
  let tmpsub := lsr 0x0f#32 tmppriority
  let tmppriority := lsl (init.preemptionPriority.setWidth 32) tmppre
  let tmppriority := tmppriority ||| init.subPriority.setWidth 32 &&& tmpsub
  (tmppriority <<< 4).setWidth 8

/-- The bit of the channel in its register of the bank at `base`. -/
def channelWrite (base : ℕ) (init : NvicInit) : Nvic.Op :=
  .write (base + init.channel.toNat / 32 * 4) (1#64 <<< (init.channel.toNat % 32)) .word

/-- The accesses of `NVIC_Init`, when `AIRCR` is read as `aircr`. -/
def nvicInit (aircr : BitVec 32) (init : NvicInit) : List Nvic.Op :=
  if init.cmd then
    [.read 0xd0c .word, .write (0x400 + init.channel.toNat) ((initPriority aircr init).setWidth 64) .byte,
      channelWrite 0x100 init]
  else [channelWrite 0x180 init]

/-- Seven bits are left for a priority of four. -/
theorem initPriority_eq_zero (init : NvicInit) : initPriority 0xfa050000#32 init = 0 := by
  have hpre : ∀ x : BitVec 32, lsl x (4#32 - (0x700#32 - (0xfa050000#32 &&& 0x700#32)) >>> 8) = 0#32 :=
    fun x => BitVec.shiftLeft_eq_zero (by decide)
  have hsub : lsr 0x0f#32 ((0x700#32 - (0xfa050000#32 &&& 0x700#32)) >>> 8) = 0#32 := by decide
  unfold initPriority
  dsimp only
  rw [hpre, hsub, BitVec.and_zero]
  decide

end Firmware

open Firmware

/-! ## Priorities -/

namespace Gic

variable {s t : Gic}

theorem update_priority2 (s : Gic) : s.update.priority2 = s.priority2 := by
  rw [update_eq]

theorem setRunningIrq_priority2 (s : Gic) (irq : ℕ) : (s.setRunningIrq irq).priority2 = s.priority2 := by
  rw [setRunningIrq]
  exact update_priority2 _

theorem repend_priority2 (s : Gic) (irq : ℕ) : (s.repend irq).priority2 = s.priority2 := by
  rw [repend]
  split <;> rfl

theorem completeIrq_priority2 {irq : ℕ} (h : s.completeIrq irq = .ok t) : t.priority2 = s.priority2 := by
  rcases completeIrq_cases h with ⟨-, rfl⟩ | ⟨-, -, -, u, hunlink, hor⟩ | ⟨-, -, -, rfl⟩
  · rfl
  · obtain ⟨f, rfl⟩ := unlinkFrom_eq hunlink
    rcases hor with rfl | ⟨rfl, -⟩
    · rw [update_priority2]
      exact s.repend_priority2 irq
    · exact s.repend_priority2 irq
  · rw [setRunningIrq_priority2, repend_priority2]

/-- **Only a write to the priority of an external interrupt changes one.** -/
theorem priority2_act {a : Act} (ht : act s a = .ok t) :
    t.priority2 = s.priority2 ∨ ∃ irq val, a = .setPriority irq val ∧ GIC_INTERNAL ≤ irq ∧
      t.priority2 = Function.update s.priority2 (irq - GIC_INTERNAL) val := by
  cases a with
  | setPriority irq val =>
    cases ht
    by_cases hirq : irq < GIC_INTERNAL
    · rw [setPriority, if_pos hirq]
      exact .inl rfl
    · refine .inr ⟨irq, val, rfl, not_lt.1 hirq, ?_⟩
      rw [setPriority, if_neg hirq]
  | pend irq =>
    cases ht
    rw [setPendingPrivate]
    split
    · exact .inl rfl
    · exact .inl (update_priority2 _)
  | line n level =>
    cases ht
    rw [setIrq]
    split
    · exact .inl rfl
    · rw [update_priority2, setIrq11mpcore]
      split
      · dsimp only
        split
        · exact .inl rfl
        · exact .inl rfl
      · exact .inl rfl
  | acknowledge =>
    obtain ⟨-, -, rfl⟩ := act_acknowledge ht
    exact .inl (setRunningIrq_priority2 _ _)
  | complete irq => exact .inl (completeIrq_priority2 ht)
  | setEnabled irq =>
    cases ht
    rw [setEnabled]
    split
    · exact .inl rfl
    · exact .inl rfl
  | clearEnabled irq | setPending irq | clearPending irq | configure irq model edge | enable irq on | reset =>
    cases ht
    exact .inl rfl
  | update =>
    cases ht
    exact .inl (update_priority2 s)

/-- The registers that a priority of an external interrupt is written to. -/
theorem setPriority_mem_writebActs {offset irq : ℕ} {value : BitVec 32} {val : BitVec 8}
    (h : Act.setPriority irq val ∈ writebActs offset value) :
    0x400 ≤ offset ∧ irq = offset - 0x400 + GIC_BASE_IRQ ∧ val = value.setWidth 8 := by
  have hoctet : ∀ {base : ℕ} {f : ℕ → Act}, (∀ n, f n ≠ .setPriority irq val) →
      Act.setPriority irq val ∉ octetActs base offset value f := by
    intro base f hf hmem
    rw [octetActs] at hmem
    split at hmem
    · exact List.not_mem_nil hmem
    · rcases List.mem_append.1 hmem with hmem | hmem
      · obtain ⟨i, -, hi⟩ := List.mem_map.1 hmem
        exact hf _ hi
      · cases List.mem_singleton.1 hmem
  -- the banks of one bit for each interrupt come first, then the priorities
  unfold writebActs at h
  split at h
  · exact (hoctet (fun n hn => by cases hn) h).elim
  split at h
  · exact (hoctet (fun n hn => by cases hn) h).elim
  split at h
  · exact (hoctet (fun n hn => by cases hn) h).elim
  split at h
  · exact (hoctet (fun n hn => by cases hn) h).elim
  split at h
  · exact (List.not_mem_nil h).elim
  case isFalse hoffset =>
    split at h
    · dsimp only at h
      split at h
      · exact (List.not_mem_nil h).elim
      · simp only [List.mem_cons, Act.setPriority.injEq, reduceCtorEq, List.not_mem_nil, or_false] at h
        exact ⟨not_lt.1 hoffset, h.1, h.2⟩
    split at h
    · cases List.mem_singleton.1 h
    split at h
    · dsimp only at h
      split at h
      · exact (List.not_mem_nil h).elim
      · simp at h
    · exact (List.not_mem_nil h).elim

end Gic

namespace Nvic

variable {s t : Nvic} {o : NvicEnv × Op} {l : List ℕ}

/-- The operation changes the priorities of external interrupts only as `NVIC_Init` does, with `AIRCR` as it was read
    at some time. -/
def SetUp (s : Nvic) (o : NvicEnv × Op) : Prop :=
  ∀ irq val, Gic.Act.setPriority irq val ∈ s.acts o.2 → Gic.GIC_INTERNAL ≤ irq →
    ∃ (env : NvicEnv) (u v : Nvic) (aircr : BitVec 32) (init : NvicInit),
      u.read env 0xd0c .word = .ok (aircr, v) ∧ o.2 ∈ nvicInit aircr init

/-- A priority that `NVIC_Init` writes. -/
theorem nvicInit_priority {o : Op} {init : NvicInit} {irq : ℕ} {val : BitVec 8} (ho : o ∈ nvicInit 0xfa050000#32 init)
    (h : Gic.Act.setPriority irq val ∈ s.acts o) : Gic.GIC_INTERNAL ≤ irq ∧ val = 0 := by
  have hchannel : ∀ base, 0x100 ≤ base → base ≤ 0x180 → Gic.Act.setPriority irq val ∉ s.acts (channelWrite base init) := by
    intro base hlo hhi hmem
    have hlt : init.channel.toNat / 32 * 4 ≤ 28 := by omega
    rw [channelWrite, acts, if_pos ⟨by omega, by omega⟩] at hmem
    simp only [Gic.writeActs, Gic.writewActs, List.mem_append] at hmem
    rcases hmem with (hmem | hmem) | hmem | hmem
    all_goals
      have hoffset := (Gic.setPriority_mem_writebActs hmem).1
      omega
  unfold nvicInit at ho
  split at ho
  · simp only [List.mem_cons, List.not_mem_nil, or_false] at ho
    rcases ho with rfl | rfl | rfl
    · exact (List.not_mem_nil h).elim
    · rw [acts, if_pos ⟨by omega, by omega⟩] at h
      obtain ⟨-, rfl, rfl⟩ := Gic.setPriority_mem_writebActs h
      rw [initPriority_eq_zero]
      exact ⟨Nat.le_add_left _ _, by decide⟩
    · exact (hchannel _ (by omega) (by omega) h).elim
  · rw [List.mem_singleton.1 ho] at h
    exact (hchannel _ (by omega) (by omega) h).elim

/-- External interrupts have the priority `0`. -/
def Zeroed (s : Nvic) : Prop := ∀ i, s.gic.priority2 i = 0

theorem Zeroed.getPriority (h : s.Zeroed) {irq : ℕ} (hirq : Gic.GIC_INTERNAL ≤ irq) : s.gic.getPriority irq = 0 := by
  rw [Gic.getPriority, if_neg (not_lt.2 hirq), h]
  rfl

theorem SetUp.zero (h : SetUp s o) {irq : ℕ} {val : BitVec 8} (hmem : Gic.Act.setPriority irq val ∈ s.acts o.2)
    (hirq : Gic.GIC_INTERNAL ≤ irq) : val = 0 := by
  obtain ⟨env, u, v, aircr, init, hread, ho⟩ := h irq val hmem hirq
  cases hread
  exact (nvicInit_priority ho hmem).2

theorem Zeroed.step (hs : s.Zeroed) (h : SetUp s o) (ht : step s o = .ok t) : t.Zeroed := by
  have hacts : ∀ acts : List Gic.Act, acts ⊆ s.acts o.2 → ∀ g g' : Gic, (∀ i, g.priority2 i = 0) →
      run Gic.act g acts = .ok g' → ∀ i, g'.priority2 i = 0 := by
    intro acts
    induction acts with
    | nil =>
      intro _ g g' hg hrun
      cases hrun
      exact hg
    | cons a acts ih =>
      intro hsub g g' hg hrun
      obtain ⟨u, hu, hrun⟩ := run_cons_ok.1 hrun
      refine ih (fun x hx => hsub (List.mem_cons_of_mem a hx)) u g' ?_ hrun
      rcases Gic.priority2_act hu with hsame | ⟨irq, val, rfl, hirq, hset⟩
      · rwa [hsame]
      · intro i
        rw [hset, h.zero (hsub List.mem_cons_self) hirq]
        by_cases hi : i = irq - Gic.GIC_INTERNAL
        · rw [hi, Function.update_self]
        · rw [Function.update_of_ne hi, hg]
  exact hacts _ (fun _ hx => hx) s.gic t.gic hs (step_acts ht)

/-- An external interrupt of the list `l` is its head, and runs with the priority `0`. -/
def Innermost (s : Nvic) (l : List ℕ) : Prop := ∀ irq ∈ l, Gic.GIC_INTERNAL ≤ irq →
  s.gic.runningIrq = irq ∧ s.gic.runningPriority = 0 ∧ ∃ l', l = irq :: l' ∧ irq ∉ l'

/-- **No interrupt is taken while one of a device is active**, since nothing is below its priority. -/
theorem Innermost.acknowledge {g : Gic} (hs : s.Zeroed) (h : s.Innermost l) (hg : Gic.act s.gic .acknowledge = .ok g) :
    Innermost { s with gic := g } (s.gic.currentPending :: l) := by
  obtain ⟨hsome, hlt, rfl⟩ := Gic.act_acknowledge hg
  have hnone : ∀ irq ∈ l, ¬ Gic.GIC_INTERNAL ≤ irq := by
    intro irq hirq hext
    rw [(h irq hirq hext).2.1] at hlt
    exact Nat.not_lt_zero _ hlt
  intro irq hirq hext
  rcases List.mem_cons.1 hirq with rfl | hirq
  · have hsame := Gic.same_update [] { s.gic with
      irqState := (s.gic.clearPending s.gic.currentPending).irqState
      lastActive := Function.update s.gic.lastActive s.gic.currentPending s.gic.runningIrq
      runningIrq := s.gic.currentPending
      runningPriority := if s.gic.currentPending = Gic.NONE then 0x100 else s.gic.getPriority s.gic.currentPending }
    refine ⟨hsame.runningIrq, hsame.runningPriority.trans ?_, l, rfl, fun hmem => hnone _ hmem hext⟩
    exact (if_neg hsome).trans (hs.getPriority hext)
  · exact absurd hext (hnone irq hirq)

theorem Innermost.complete {g : Gic} {n : ℕ} (h : s.Innermost l) (hg : s.gic.completeIrq n = .ok g) :
    Innermost { s with gic := g } (l.erase n) := by
  intro irq hirq hext
  obtain ⟨hrun, hprio, l', rfl, hnot⟩ := h irq (List.mem_of_mem_erase hirq) hext
  have hne : irq ≠ n := by
    rintro rfl
    rw [List.erase_cons_head] at hirq
    exact hnot hirq
  have hkept : g.runningIrq = s.gic.runningIrq ∧ g.runningPriority = s.gic.runningPriority := by
    rcases Gic.completeIrq_cases hg with ⟨-, rfl⟩ | ⟨-, -, -, u, hunlink, hor⟩ | ⟨-, hn, -⟩
    · exact ⟨rfl, rfl⟩
    · obtain ⟨f, rfl⟩ := Gic.unlinkFrom_eq hunlink
      have hrep := Gic.same_repend [] s.gic n
      rcases hor with rfl | ⟨rfl, -⟩
      · have hsame := Gic.same_update [] { s.gic.repend n with lastActive := f }
        exact ⟨hsame.runningIrq.trans hrep.runningIrq, hsame.runningPriority.trans hrep.runningPriority⟩
      · exact ⟨hrep.runningIrq, hrep.runningPriority⟩
    · exact absurd (hrun.symm.trans hn.symm) hne
  refine ⟨hkept.1.trans hrun, hkept.2.trans hprio, l'.erase n, ?_, fun hmem => hnot (List.mem_of_mem_erase hmem)⟩
  exact List.erase_cons_tail (by simpa using hne)

theorem Innermost.step (hs : s.Zeroed) (h : s.Innermost l) (ht : step s o = .ok t) : t.Innermost (s.active l o.2) := by
  have hrun := step_acts ht
  obtain ⟨env, o⟩ := o
  rcases plain_acts s o with rfl | ⟨irq, rfl⟩ | rfl | ⟨hplain, hsame⟩
  · obtain ⟨g, hg, hrun⟩ := run_cons_ok.1 hrun
    cases hrun
    exact h.acknowledge hs hg
  · obtain ⟨g, hg, hrun⟩ := run_cons_ok.1 hrun
    cases hrun
    exact h.complete hg
  · exact fun irq hirq => absurd hirq List.not_mem_nil
  · have hkept := Gic.same_run (l := []) (fun a ha => ⟨hplain a ha, by cases a <;> rfl⟩) hrun
    rw [hsame]
    intro irq hirq hext
    obtain ⟨hrunning, hprio, hhead⟩ := h irq hirq hext
    exact ⟨hkept.runningIrq.trans hrunning, hkept.runningPriority.trans hprio, hhead⟩

end Nvic

open Nvic

/-- **The interrupts of devices do not preempt each other.**  If the firmware sets them up by `NVIC_Init`, an
    active one is the innermost, and there is no request while it is active, whatever priorities `NVIC_Init` was
    given. -/
theorem devices_not_nested {l : List (NvicEnv × Nvic.Op)}
    (hsetup : ∀ p o, Takes stepActive (Nvic.start, []) l p o → SetUp p.1 o) {s : Nvic} {a : List ℕ}
    (hs : run stepActive (Nvic.start, []) l = .ok (s, a)) :
    (∀ irq, Gic.GIC_INTERNAL ≤ irq → s.gic.getPriority irq = 0) ∧ (∀ irq ∈ a.tail, irq < Gic.GIC_INTERNAL) ∧
      ∀ irq ∈ a, Gic.GIC_INTERNAL ≤ irq → s.gic.parentIrq = false := by
  have hinv : Post (fun p : Nvic × List ℕ => p.1.gic.On ∧ p.1.gic.Coherent ∧ p.1.Zeroed ∧ p.1.Innermost p.2)
      (fun _ => True) (run stepActive (Nvic.start, []) l) := by
    refine Post.run ?_ ⟨start_on, .inl ⟨rfl, rfl⟩, fun _ => rfl, fun _ hirq => absurd hirq List.not_mem_nil⟩ hsetup
    rintro ⟨s, a⟩ o ⟨hon, hcoh, hzero, hinner⟩ ho
    cases ht : s.step o with
    | error e =>
      rw [stepActive, ht]
      trivial
    | ok t =>
      rw [stepActive, ht]
      exact ⟨On.step hon ht, coherent_step hon hcoh ht, hzero.step ho ht, hinner.step hzero ht⟩
  rw [hs] at hinv
  obtain ⟨-, hcoh, hzero, hinner⟩ := hinv
  refine ⟨fun irq => hzero.getPriority, fun irq hirq => ?_, fun irq hirq hext => ?_⟩
  · by_contra hext
    obtain ⟨-, -, l', rfl, hnot⟩ := hinner irq (List.mem_of_mem_tail hirq) (not_lt.1 hext)
    exact hnot hirq
  · obtain ⟨-, hprio, -⟩ := hinner irq hirq hext
    rcases hcoh with ⟨-, hno⟩ | ⟨-, hreq⟩
    · exact hno
    · rw [hreq, hprio]
      exact decide_eq_false (Nat.not_lt_zero _)

/-- The accesses of `NVIC_Init` are what `SetUp` allows. -/
theorem setUp_nvicInit {s : Nvic} {o : NvicEnv × Nvic.Op} {init : NvicInit}
    (ho : o.2 ∈ nvicInit 0xfa050000#32 init) : SetUp s o :=
  fun _ _ _ _ => ⟨o.1, s, s, _, init, rfl, ho⟩

def tim2Init : NvicInit := ⟨28, 2, 0, true⟩
def usart1Init : NvicInit := ⟨37, 0, 0, true⟩

/-- `USART1` is to preempt `TIM2`.  Its line is raised while the interrupt of `TIM2` is active. -/
def twoDevices : List (NvicEnv × Nvic.Op) :=
  (nvicInit 0xfa050000#32 tim2Init ++ nvicInit 0xfa050000#32 usart1Init ++
    [Op.setIrq TIM2_IRQn true, Op.acknowledge, Op.setIrq STM32_UART1_IRQ true]).map (⟨0, .init⟩, ·)

theorem devices_not_nested_usart1 : ∃ s, run stepActive (Nvic.start, []) twoDevices = .ok (s, [60]) ∧
    s.gic.ready 69 = true ∧ s.gic.parentIrq = false := by
  have hsetup : ∀ p o, Takes stepActive (Nvic.start, []) twoDevices p o → SetUp p.1 o := by
    intro p o htakes
    obtain ⟨o, ho, rfl⟩ := List.mem_map.1 htakes.mem
    rcases List.mem_append.1 ho with ho | ho
    · rcases List.mem_append.1 ho with ho | ho
      · exact setUp_nvicInit ho
      · exact setUp_nvicInit ho
    · intro irq val hmem
      simp only [List.mem_cons, List.not_mem_nil, or_false] at ho
      rcases ho with rfl | rfl | rfl
      all_goals cases List.mem_singleton.1 hmem
  have hrun : ∃ p, run stepActive (Nvic.start, []) twoDevices = .ok p ∧ p.2 = [60] ∧ p.1.gic.ready 69 = true := by
    rw [← post_ok]
    decide +kernel
  obtain ⟨⟨s, a⟩, hs, rfl, hready⟩ := hrun
  exact ⟨s, hs, hready, (devices_not_nested hsetup hs).2.2 60 List.mem_cons_self (by decide)⟩

end Bluepill
