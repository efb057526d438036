/-
  The request of the NVIC at the CPU.

  `gic_update` chooses the pending interrupt with the least priority value and requests it
  if the running one has a greater value.  Almost every operation ends with it; so what it
  makes true is true after every operation (`step_keeps`).

  * While there is a request, the CPU gets a vector (`vector_iff_request`).
  * There is a request exactly if an enabled interrupt is pending that can preempt the
    running one, and the CPU gets the first of those with the least priority value
    (`request_iff_ready`).  The exception are writes to the System Handler Control, which do not
    call `gic_update`.
-/
import Bluepill.Nvic.Acts

namespace Bluepill

open Machine

namespace Gic

variable {s t : Gic} {irq : ℕ}

/-- The NVIC is always enabled, and lets all priorities through. -/
structure On (s : Gic) : Prop where
  enabled : s.enabled = true
  cpuEnabled : s.cpuEnabled = true
  priorityMask : s.priorityMask = 0x100

theorem getPriority_lt (s : Gic) (irq : ℕ) : s.getPriority irq < 0x100 := by
  unfold getPriority
  split
  · exact (s.priority1 irq).isLt
  · exact (s.priority2 _).isLt

/-- The interrupt that `gic_update` chooses, and whether it requests it. -/
@[irreducible] def choose (on : Bool) (ready : ℕ → Bool) (priority : ℕ → ℕ) (mask running : ℕ) : ℕ × Bool :=
  let best := Least.scan ready priority (0x100, NONE) numIrq
  if on && best.1 < mask then (best.2, best.1 < running) else (NONE, false)

def choice (s : Gic) : ℕ × Bool :=
  choose (s.enabled && s.cpuEnabled) s.ready s.getPriority s.priorityMask s.runningPriority

theorem update_eq (s : Gic) :
    s.update = { s with currentPending := s.choice.1, parentIrq := s.choice.2 } := by
  unfold update choice choose
  cases s.enabled <;> cases s.cpuEnabled <;> simp
  split_ifs <;> rfl

/-- **What `gic_update` chooses.** -/
theorem choice_cases (h : s.On) :
    (∃ irq, Least.First s.ready s.getPriority numIrq irq ∧
      s.choice = (irq, decide (s.getPriority irq < s.runningPriority))) ∨
    ((∀ irq < numIrq, s.ready irq = false) ∧ s.choice = (NONE, false)) := by
  unfold choice choose
  rw [h.enabled, h.cpuEnabled, h.priorityMask]
  rcases Least.scan_cases s.ready s.getPriority (0x100, NONE) numIrq with
    ⟨hscan, hnone⟩ | ⟨irq, hfirst, -, hscan⟩
  · refine .inr ⟨fun irq hirq => ?_, by rw [hscan]; rfl⟩
    rw [← Bool.not_eq_true]
    exact fun hready => absurd (s.getPriority_lt irq) (not_lt.2 (hnone irq hirq hready))
  · refine .inl ⟨irq, hfirst, ?_⟩
    rw [hscan]
    simp [s.getPriority_lt irq]

/-! ## What every operation keeps -/

theorem On.update (h : s.On) : s.update.On := by
  rw [update_eq]
  exact ⟨h.enabled, h.cpuEnabled, h.priorityMask⟩

theorem On.modIrq (h : s.On) (f : GicIrqState → GicIrqState) : (s.modIrq irq f).On :=
  ⟨h.enabled, h.cpuEnabled, h.priorityMask⟩

theorem On.setRunningIrq (h : s.On) : (s.setRunningIrq irq).On :=
  On.update ⟨h.enabled, h.cpuEnabled, h.priorityMask⟩

/-- The unlinking loop changes only the list of active interrupts. -/
theorem unlinkFrom_eq {fuel tmp : ℕ} (h : s.unlinkFrom irq fuel tmp = .ok t) :
    ∃ f, t = { s with lastActive := f } := by
  induction fuel generalizing tmp with
  | zero => cases h
  | succ fuel ih =>
    unfold unlinkFrom at h
    split_ifs at h
    · cases h
      exact ⟨s.lastActive, rfl⟩
    · cases h
      exact ⟨_, rfl⟩
    · exact ih h

/-- **What an acknowledgement does.** -/
theorem act_acknowledge (h : act s .acknowledge = .ok t) :
    s.currentPending ≠ NONE ∧ s.getPriority s.currentPending < s.runningPriority ∧
      t = (clearPending { s with lastActive := Function.update s.lastActive s.currentPending s.runningIrq }
        s.currentPending).setRunningIrq s.currentPending := by
  simp only [act, acknowledgeIrq] at h
  by_cases hno : s.currentPending = NONE ∨ s.runningPriority ≤ s.getPriority s.currentPending
  · rw [if_pos hno] at h
    simp at h
  · rw [if_neg hno] at h
    rw [not_or, not_le] at hno
    rw [if_neg hno.1] at h
    cases h
    exact ⟨hno.1, hno.2, rfl⟩

theorem acknowledge_running (h : act s .acknowledge = .ok t) :
    t.runningIrq = s.currentPending ∧ t.getPriority = s.getPriority := by
  obtain ⟨-, -, rfl⟩ := act_acknowledge h
  rw [setRunningIrq, update_eq]
  exact ⟨rfl, rfl⟩

/-- **What a completion does.** -/
theorem completeIrq_cases (h : s.completeIrq irq = .ok t) :
    ((irq ≥ numIrq ∨ s.runningIrq = NONE) ∧ t = s) ∨ (irq < numIrq ∧ irq ≠ s.runningIrq ∧ s.runningIrq ≠ NONE ∧
        ∃ u, (s.repend irq).unlinkFrom irq (GIC_MAXIRQ + 1) s.runningIrq = .ok u ∧
          (t = u.update ∨ t = u ∧ s.repend irq = s)) ∨
      (irq < numIrq ∧ irq = s.runningIrq ∧ s.runningIrq ≠ NONE ∧
        t = (s.repend irq).setRunningIrq (s.lastActive irq)) := by
  unfold completeIrq at h
  split_ifs at h with hirq hnone hrun hraised
  · cases h
    exact .inl ⟨.inl hirq, rfl⟩
  · cases h
    exact .inl ⟨.inr hnone, rfl⟩
  · obtain ⟨u, hu, h⟩ := bind_eq_ok.1 h
    cases h
    exact .inr (.inl ⟨not_le.1 hirq, hrun, hnone, u, hu, .inl rfl⟩)
  · obtain ⟨u, hu, h⟩ := bind_eq_ok.1 h
    cases h
    exact .inr (.inl ⟨not_le.1 hirq, hrun, hnone, _, hu, .inr ⟨rfl, if_neg hraised⟩⟩)
  · rw [not_not] at hrun
    cases h
    refine .inr (.inr ⟨not_le.1 hirq, hrun, hnone, ?_⟩)
    rw [hrun]

theorem On.repend (h : s.On) : (s.repend irq).On := by
  unfold Gic.repend
  split
  · exact h.modIrq _
  · exact h

theorem On.act {a : Act} (h : s.On) (ht : act s a = .ok t) : t.On := by
  cases a with
  | pend irq =>
    cases ht
    unfold setPendingPrivate
    split
    · exact h
    · exact On.update (h.modIrq _)
  | line line level =>
    cases ht
    unfold setIrq
    dsimp only
    split
    · exact h
    · refine On.update ?_
      unfold setIrq11mpcore
      dsimp only
      split_ifs
      · exact (h.modIrq _).modIrq _
      · exact h.modIrq _
      · exact h.modIrq _
  | acknowledge =>
    obtain ⟨-, -, rfl⟩ := act_acknowledge ht
    refine On.setRunningIrq (On.modIrq ?_ _)
    exact ⟨h.enabled, h.cpuEnabled, h.priorityMask⟩
  | complete irq =>
    rcases completeIrq_cases ht with ⟨-, rfl⟩ | ⟨-, -, -, u, hu, hor⟩ | ⟨-, -, -, rfl⟩
    · exact h
    · obtain ⟨f, rfl⟩ := unlinkFrom_eq hu
      have hrep : (s.repend irq).On := h.repend
      have hu' : On { s.repend irq with lastActive := f } := ⟨hrep.enabled, hrep.cpuEnabled, hrep.priorityMask⟩
      rcases hor with rfl | ⟨rfl, -⟩
      · exact hu'.update
      · exact hu'
    · exact On.setRunningIrq h.repend
  | setEnabled irq =>
    cases ht
    unfold setEnabled
    dsimp only
    split
    · exact (h.modIrq _).modIrq _
    · exact h.modIrq _
  | clearEnabled irq | setPending irq | clearPending irq | configure irq model edgeTrigger | enable irq on =>
    cases ht
    exact h.modIrq _
  | setPriority irq val =>
    cases ht
    unfold setPriority
    split <;> exact ⟨h.enabled, h.cpuEnabled, h.priorityMask⟩
  | update =>
    cases ht
    exact h.update
  | reset =>
    cases ht
    exact ⟨rfl, rfl, rfl⟩

theorem On.run {l : List Act} (h : s.On) (ht : run Gic.act s l = .ok t) : t.On :=
  run_inv (I := On) (fun _ _ _ hs => hs.act) h ht

/-- The actions `l` keep the property `P`. -/
def Keeps (P : Gic → Prop) (l : List Act) : Prop :=
  ∀ s t, s.On → P s → run act s l = .ok t → P t

section
variable {P : Gic → Prop} {l l' : List Act}

theorem keeps_nil : Keeps P [] := by
  intro s t _ hs h
  cases h
  exact hs

theorem Keeps.append (hl : Keeps P l) (hl' : Keeps P l') : Keeps P (l ++ l') := by
  intro s u hon hs hu
  obtain ⟨t, ht, hu⟩ := run_append_ok.1 hu
  exact hl' t u (hon.run ht) (hl s t hon hs ht) hu

variable (hupdate : ∀ s : Gic, s.On → P s.update)

include hupdate

theorem keeps_of_update (l : List Act) : Keeps P (l ++ [.update]) := by
  intro s u hon _ hu
  obtain ⟨t, ht, hu⟩ := run_append_ok.1 hu
  cases hu
  exact hupdate t (hon.run ht)

theorem keeps_pend (irq : ℕ) : Keeps P [.pend irq] := by
  intro s t hon hs h
  cases h
  unfold setPendingPrivate
  split
  · exact hs
  · exact hupdate _ (hon.modIrq _)

theorem keeps_octetActs (base offset : ℕ) (value : BitVec 32) (f : ℕ → Act) :
    Keeps P (octetActs base offset value f) := by
  unfold octetActs
  dsimp only
  split
  · exact keeps_nil
  · exact keeps_of_update hupdate _

theorem keeps_writebActs (offset : ℕ) (value : BitVec 32) : Keeps P (writebActs offset value) := by
  unfold writebActs
  dsimp only
  split
  · exact keeps_octetActs hupdate _ _ _ _
  split
  · exact keeps_octetActs hupdate _ _ _ _
  split
  · exact keeps_octetActs hupdate _ _ _ _
  split
  · exact keeps_octetActs hupdate _ _ _ _
  split
  · exact keeps_nil
  split
  · split
    · exact keeps_nil
    · exact keeps_of_update hupdate [_]
  split
  · exact keeps_of_update hupdate []
  split
  · split
    · exact keeps_nil
    · exact keeps_of_update hupdate _
  · exact keeps_nil

theorem keeps_writeActs (offset : ℕ) (value : BitVec 32) (size : AccessSize) :
    Keeps P (writeActs offset value size) := by
  have hw : ∀ offset value, Keeps P (writewActs offset value) := fun offset value =>
    (keeps_writebActs hupdate _ _).append (keeps_writebActs hupdate _ _)
  cases size with
  | byte => exact keeps_writebActs hupdate _ _
  | half => exact hw _ _
  | word => exact (hw _ _).append (hw _ _)

end

end Gic

namespace Nvic

open Gic

variable {s t : Nvic} {P : Gic → Prop}

theorem keeps_pendingActs (hupdate : ∀ s : Gic, s.On → P s.update) (value : BitVec 32)
    (irq set clear : ℕ) : Keeps P (pendingActs value irq set clear) := by
  unfold pendingActs
  split
  · exact keeps_pend hupdate irq
  split
  · exact keeps_of_update hupdate [_]
  · exact keeps_nil

theorem keeps_sysregActs (hupdate : ∀ s : Gic, s.On → P s.update) {offset : ℕ} {value : BitVec 64}
    {size : AccessSize} (h : ¬ (offset = 0xd24 ∧ size = .word)) : Keeps P (sysregActs offset value size) := by
  unfold sysregActs
  split
  · exact keeps_of_update hupdate _
  split
  · rename_i hsize
    unfold writelActs
    split
    · refine Keeps.append (Keeps.append ?_ ?_) ?_
      · split
        · exact keeps_pend hupdate _
        · exact keeps_nil
      · exact keeps_pendingActs hupdate _ _ _ _
      · exact keeps_pendingActs hupdate _ _ _ _
    · exact absurd ⟨rfl, hsize⟩ h
    · split
      · exact keeps_pend hupdate _
      · exact keeps_nil
    · exact keeps_nil
  · exact keeps_nil

/-- **What `gic_update` makes true is true after every operation.**  It must not depend on the
    list of active interrupts, which some completions change without an update, and must hold
    after a reset; writes to the System Handler Control are a case of their own. -/
theorem step_keeps (hupdate : ∀ s : Gic, s.On → P s.update)
    (hactive : ∀ (s : Gic) f, P s → P { s with lastActive := f }) (hreset : ∀ s : Gic, P s.reset)
    {o : NvicEnv × Op}
    (hshcsr : ∀ value, o.2 = .write 0xd24 value .word → P (s.writeShcsr (value.setWidth 32)).gic)
    (hon : s.gic.On) (hs : P s.gic) (h : step s o = .ok t) : P t.gic := by
  have hkeep : Keeps P (s.acts o.2) → P t.gic := fun hk => hk s.gic t.gic hon hs (step_acts h)
  obtain ⟨env, o⟩ := o
  cases o with
  | setIrq line level =>
    refine hkeep ?_
    intro s t hon hs ht
    cases ht
    unfold Gic.setIrq
    dsimp only
    split
    · exact hs
    · refine hupdate _ ?_
      unfold setIrq11mpcore
      dsimp only
      split_ifs
      · exact (hon.modIrq _).modIrq _
      · exact hon.modIrq _
      · exact hon.modIrq _
  | setPending irq => exact hkeep (keeps_pend hupdate _)
  | acknowledge =>
    refine hkeep ?_
    intro s t hon hs ht
    obtain ⟨u, hu, ht⟩ := run_cons_ok.1 ht
    cases ht
    obtain ⟨-, -, rfl⟩ := act_acknowledge hu
    exact hupdate _ ⟨hon.enabled, hon.cpuEnabled, hon.priorityMask⟩
  | complete irq =>
    refine hkeep ?_
    intro s t hon hs ht
    obtain ⟨u, hu, ht⟩ := run_cons_ok.1 ht
    cases ht
    rcases completeIrq_cases hu with ⟨-, rfl⟩ | ⟨-, -, -, u, hunlink, hor⟩ | ⟨-, -, -, rfl⟩
    · exact hs
    · obtain ⟨f, rfl⟩ := unlinkFrom_eq hunlink
      rcases hor with rfl | ⟨rfl, hsame⟩
      · have hrep : (s.repend (fromVector irq)).On := hon.repend
        exact hupdate _ ⟨hrep.enabled, hrep.cpuEnabled, hrep.priorityMask⟩
      · rw [hsame]
        exact hactive s f hs
    · have hrep : (s.repend (fromVector irq)).On := hon.repend
      exact hupdate _ ⟨hrep.enabled, hrep.cpuEnabled, hrep.priorityMask⟩
  | read offset size => exact hkeep keeps_nil
  | write offset value size =>
    by_cases hrange : 0x100 ≤ offset ∧ offset < 0xd00
    · refine hkeep ?_
      simp only [acts, if_pos hrange]
      exact keeps_writeActs hupdate _ _ _
    by_cases hword : offset = 0xd24 ∧ size = .word
    · obtain ⟨rfl, rfl⟩ := hword
      cases h
      exact hshcsr value rfl
    · refine hkeep ?_
      simp only [acts, if_neg hrange]
      exact keeps_sysregActs hupdate hword
  | tick =>
    refine hkeep ?_
    simp only [acts]
    split
    · exact keeps_pend hupdate _
    · exact keeps_nil
  | reset =>
    cases h
    exact hreset s.gic

theorem On.step {o : NvicEnv × Op} (hon : s.gic.On) (h : step s o = .ok t) : t.gic.On :=
  hon.run (step_acts h)

theorem start_on : start.gic.On := ⟨rfl, rfl, rfl⟩

end Nvic

/-! ## Requests and vectors -/

namespace Gic

variable {s t : Gic} {irq : ℕ}

/-- The request at the CPU is for the interrupt that an acknowledgement takes. -/
def Coherent (s : Gic) : Prop :=
  (s.currentPending = NONE ∧ s.parentIrq = false) ∨
    (s.currentPending < numIrq ∧ s.parentIrq = decide (s.getPriority s.currentPending < s.runningPriority))

theorem coherent_update (h : s.On) : s.update.Coherent := by
  rw [update_eq]
  rcases choice_cases h with ⟨irq, hfirst, heq⟩ | ⟨-, heq⟩
  · rw [heq]
    exact .inr ⟨hfirst.lt, rfl⟩
  · rw [heq]
    exact .inl ⟨rfl, rfl⟩

theorem Coherent.acknowledge_iff (h : s.Coherent) : (∃ t, act s .acknowledge = .ok t) ↔ s.parentIrq = true := by
  have hlt : numIrq < NONE := by decide
  rcases h with ⟨hnone, hirq⟩ | ⟨hcur, hirq⟩
  · refine iff_of_false ?_ (by simp [hirq])
    rintro ⟨t, ht⟩
    exact (act_acknowledge ht).1 hnone
  · rw [hirq, decide_eq_true_iff]
    constructor
    · rintro ⟨t, ht⟩
      exact (act_acknowledge ht).2.1
    · intro hprio
      have hne : s.currentPending ≠ NONE := (hcur.trans hlt).ne
      have hno : ¬ (s.currentPending = NONE ∨ s.getPriority s.currentPending ≥ s.runningPriority) :=
        not_or.2 ⟨hne, not_le.2 hprio⟩
      simp only [act, acknowledgeIrq, if_neg hno, if_neg hne]
      exact ⟨_, rfl⟩

/-- A state that `gic_update` leaves as it is. -/
def Settled (s : Gic) : Prop := s.update = s

theorem settled_iff : s.Settled ↔ s.choice = (s.currentPending, s.parentIrq) := by
  rw [Settled, update_eq]
  constructor
  · intro h
    have hcur : s.choice.1 = s.currentPending := congrArg currentPending h
    have hreq : s.choice.2 = s.parentIrq := congrArg parentIrq h
    rw [← hcur, ← hreq]
  · intro h
    rw [h]

theorem settled_update (s : Gic) : s.update.Settled := by
  rw [settled_iff, update_eq]
  rfl

/-- **A settled state.** -/
theorem Settled.cases (hs : s.Settled) (hon : s.On) :
    (Least.First s.ready s.getPriority numIrq s.currentPending ∧
        s.parentIrq = decide (s.getPriority s.currentPending < s.runningPriority)) ∨
      ((∀ irq < numIrq, s.ready irq = false) ∧ s.currentPending = NONE ∧ s.parentIrq = false) := by
  rw [settled_iff] at hs
  rcases choice_cases hon with ⟨irq, hfirst, heq⟩ | ⟨hnone, heq⟩
  · rw [hs, Prod.mk.injEq] at heq
    obtain ⟨rfl, hreq⟩ := heq
    exact .inl ⟨hfirst, hreq⟩
  · rw [hs, Prod.mk.injEq] at heq
    exact .inr ⟨hnone, heq⟩

end Gic

namespace Nvic

open Gic

variable {s t : Nvic}

theorem acknowledgeIrq_ok {v : ℕ} (h : s.acknowledgeIrq = .ok (v, t)) :
    act s.gic .acknowledge = .ok t.gic ∧ v = toVector s.gic.currentPending := by
  simp only [acknowledgeIrq, Gic.acknowledgeIrq] at h
  simp only [act, Gic.acknowledgeIrq]
  by_cases hno : s.gic.currentPending = NONE ∨ s.gic.runningPriority ≤ s.gic.getPriority s.gic.currentPending
  · rw [if_pos hno] at h
    simp at h
  · have hne : s.gic.currentPending ≠ NONE := fun h0 => hno (.inl h0)
    rw [if_neg hno] at h ⊢
    simp only [if_neg hne] at h ⊢
    cases h
    exact ⟨rfl, rfl⟩

theorem exists_acknowledgeIrq : (∃ v t, s.acknowledgeIrq = .ok (v, t)) ↔
    ∃ g, act s.gic .acknowledge = .ok g := by
  constructor
  · rintro ⟨v, t, h⟩
    exact ⟨t.gic, (acknowledgeIrq_ok h).1⟩
  · rintro ⟨g, h⟩
    obtain ⟨hne, hlt, -⟩ := act_acknowledge h
    have hno : ¬ (s.gic.currentPending = NONE ∨ s.gic.getPriority s.gic.currentPending ≥ s.gic.runningPriority) :=
      not_or.2 ⟨hne, not_le.2 hlt⟩
    simp only [acknowledgeIrq, Gic.acknowledgeIrq, if_neg hno, if_neg hne]
    exact ⟨_, _, rfl⟩

theorem coherent_step {o : NvicEnv × Op} (hon : s.gic.On) (hcoh : s.gic.Coherent) (h : step s o = .ok t) :
    t.gic.Coherent := by
  refine step_keeps (P := Coherent) ?_ ?_ ?_ ?_ hon hcoh h
  · exact fun _ => coherent_update
  · exact fun _ _ hs => hs
  · exact fun _ => .inl ⟨rfl, rfl⟩
  · exact fun _ _ => hcoh

end Nvic

open Nvic Gic

/-- **While there is a request, and only then, the CPU gets a vector**, in every state of the NVIC. -/
theorem vector_iff_request {l : List (NvicEnv × Nvic.Op)} {s : Nvic}
    (h : run Nvic.step Nvic.start l = .ok s) :
    (∃ v t, s.acknowledgeIrq = .ok (v, t)) ↔ s.gic.parentIrq = true := by
  have hinv : s.gic.On ∧ s.gic.Coherent := by
    refine run_inv (I := fun s : Nvic => s.gic.On ∧ s.gic.Coherent) ?_ ⟨start_on, .inl ⟨rfl, rfl⟩⟩ h
    rintro t o u ⟨hon, hcoh⟩ hu
    exact ⟨On.step hon hu, coherent_step hon hcoh hu⟩
  rw [exists_acknowledgeIrq]
  exact hinv.2.acknowledge_iff

/-- The interrupt of `USART1` is enabled with priority `0x10`, and its line raised. -/
def usart1Raised : List (NvicEnv × Nvic.Op) :=
  [.write 0x104 0x20 .word, .write 0x425 0x10 .byte, .setIrq STM32_UART1_IRQ true].map (⟨0, .init⟩, ·)

theorem vector_iff_request_usart1 : ∃ s, run Nvic.step Nvic.start usart1Raised = .ok s ∧
    s.gic.parentIrq = true ∧ ∃ v t, s.acknowledgeIrq = .ok (v, t) := by
  have heval : Post (fun s => s.gic.parentIrq = true) (fun _ => False)
      (run Nvic.step Nvic.start usart1Raised) := by decide +kernel
  obtain ⟨s, hs, hreq⟩ := post_ok.1 heval
  exact ⟨s, hs, hreq, (vector_iff_request hs).2 hreq⟩

end Bluepill
