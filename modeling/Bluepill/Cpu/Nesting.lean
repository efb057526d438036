/-
  Exceptions nest.

  The CPU runs code, and between two blocks of code may take an interrupt; a handler ends with a
  jump to the magic value.  In the state of the machine are also the contexts that were
  interrupted and not resumed, the last one first (`step`).  What the code must do for its part
  is `Obeys`: it leaves the frames of the contexts alone, has room for a new one below its stack
  pointer, and a handler returns with the stacks and the registers outside of the frame as it
  found them; and at the NVIC it does not change the priority of an active interrupt, and does
  not trigger interrupt `0`, which has no vector.  The NVIC is not reset on its own.

  `exceptions_nest`: then every return resumes the context that was interrupted last, whatever
  the interrupts in between; and the NVIC and the status registers agree on the exceptions that
  are active, and on their order.
-/
import Bluepill.Cpu.Frame
import Bluepill.Nvic.Vectors

namespace Bluepill

open Machine Gic

namespace ArmCpu

/-- What an instruction can change: the registers, the flags and memory. -/
def instr (s t : ArmCpu) : ArmCpu :=
  { s with
    regs := t.regs
    NF := t.NF
    ZF := t.ZF
    CF := t.CF
    VF := t.VF
    QF := t.QF
    thumb := t.thumb
    condexecBits := t.condexecBits
    mem := t.mem }

theorem xpsrWrite_exception_mem {s : ArmCpu} {mask : BitVec 32} (val : BitVec 32) (hmask : mask &&& 0x1ff#32 = 0) :
    (s.xpsrWrite val mask).exception = s.exception ∧ (s.xpsrWrite val mask).mem = s.mem := by
  simp [xpsrWrite, hmask, apply_ite exception, apply_ite mem]

/-- No special register is the number of the exception. -/
theorem v7mMsr_exception_mem {s t : ArmCpu} {reg : ℕ} {val : BitVec 32} (h : s.v7mMsr reg val = .ok t) :
    t.exception = s.exception ∧ t.mem = s.mem := by
  unfold v7mMsr at h
  split at h <;> cases h
  all_goals first
    | exact ⟨rfl, rfl⟩
    | exact xpsrWrite_exception_mem val (by decide)
    | skip
  · split <;> exact ⟨rfl, rfl⟩
  · split <;> exact ⟨rfl, rfl⟩
  · split <;> exact ⟨rfl, rfl⟩
  · unfold switchSp
    split <;> exact ⟨rfl, rfl⟩

end ArmCpu

namespace Core

/-- What happens at the CPU: an instruction, one that writes a special register, something at the NVIC,
    an exception other than an interrupt or a return, and the two places where those are looked for. -/
inductive Op where
  | instr (t : ArmCpu)
  | msr (reg : ℕ) (val : BitVec 32)
  | nvic (o : NvicEnv × Nvic.Op)
  | raise (excp : Excp)
  | poll
  | magic

/-- A step of the CPU, with the contexts that are interrupted. -/
def step (p : Core × List ArmCpu) : Op → Except Fault (Core × List ArmCpu)
  | .instr t => .ok ({ p.1 with cpu := p.1.cpu.instr t }, p.2)
  | .msr reg val => do
    let cpu ← p.1.cpu.v7mMsr reg val
    .ok ({ p.1 with cpu }, p.2)
  | .nvic o => do
    let nvic ← p.1.nvic.step o
    .ok ({ p.1 with nvic }, p.2)
  | .raise excp => do
    let s ← p.1.doInterrupt excp
    .ok (s, p.2)
  | .poll => do
    let s ← p.1.poll
    .ok (s, if p.1.interruptible then p.1.cpu :: p.2 else p.2)
  | .magic => do
    let s ← p.1.magic
    .ok (s, if 0xfffffff0#32 ≤ p.1.cpu.regs 15 then p.2.tail else p.2)

/-- The exceptions of the contexts, that of the running code first. -/
def exceptions (p : Core × List ArmCpu) : List ℕ := (p.1.cpu :: p.2).map fun s => s.exception.toNat

/-- The interrupts that are active by them: the outermost context is that of a thread. -/
def active (p : Core × List ArmCpu) : List ℕ := (exceptions p).dropLast.map Nvic.fromVector

/-- What the code does for its part.  Only the CPU takes and completes interrupts. -/
def Obeys (p : Core × List ArmCpu) : Op → Prop
  | .instr t => ∀ f ∈ p.2, ∀ i : Fin 32,
    t.mem (f.frameBase + BitVec.ofNat 32 i) = p.1.cpu.mem (f.frameBase + BitVec.ofNat 32 i)
  | .msr _ _ => True
  | .nvic o => ∀ a ∈ p.1.nvic.acts o.2,
    a.plain = true ∧ a.vectored = true ∧ a.leaves p.1.nvic.gic (active p) = true
  | .raise excp => excp ≠ .irq ∧ excp ≠ .exceptionExit
  | .poll => p.1.interruptible = true →
    (p.1.cpu.regs 15).getLsbD 0 = false ∧ ∀ f ∈ p.2, Stack.Apart p.1.cpu.frameBase f.frameBase 32
  | .magic => 0xfffffff0#32 ≤ p.1.cpu.regs 15 → ∃ f ∈ p.2.head?, f.Returns p.1.cpu

instance (p : Core × List ArmCpu) : (o : Op) → Decidable (Obeys p o)
  | .instr _ => inferInstanceAs (Decidable (∀ f ∈ _, ∀ _ : Fin 32, _))
  | .msr _ _ => inferInstanceAs (Decidable True)
  | .nvic _ => inferInstanceAs (Decidable (∀ a ∈ _, _))
  | .raise _ => inferInstanceAs (Decidable (_ ∧ _))
  | .poll => inferInstanceAs (Decidable (_ → _ ∧ ∀ f ∈ _, Stack.Apart _ _ _))
  | .magic => inferInstanceAs (Decidable (_ → ∃ f ∈ _, ArmCpu.Returns f _))

/-- The contexts `fs` are interrupted, and the interrupts `l` active. -/
structure Nested (s : Core) (fs : List ArmCpu) (l : List ℕ) : Prop where
  on : s.nvic.gic.On
  coherent : s.nvic.gic.Coherent
  vectored : s.nvic.gic.Vectored
  stack : s.nvic.gic.Stack l
  vectors : ∀ irq ∈ l, HasVector irq
  exceptions : exceptions (s, fs) = l.map Nvic.toVector ++ [0]
  frames : ∀ f ∈ fs, Stack.popAll s.cpu.mem f.frameBase 8 = f.frame
  even : ∀ f ∈ fs, (f.regs 15).getLsbD 0 = false

variable {s t : Core} {fs : List ArmCpu} {l : List ℕ}

theorem exceptions_cons : exceptions (t, s.cpu :: fs) = t.cpu.exception.toNat :: exceptions (s, fs) := rfl

theorem Nested.active (h : Nested s fs l) : active (s, fs) = l := by
  rw [Core.active, h.exceptions, List.dropLast_concat, List.map_map]
  refine (List.map_congr_left fun irq hirq => ?_).trans (List.map_id l)
  exact (h.vectors irq hirq).fromVector

/-- The code runs: it leaves the exception, and the frames. -/
theorem Nested.code {cpu : ArmCpu} (h : Nested s fs l) (hexc : cpu.exception = s.cpu.exception)
    (hmem : ∀ f ∈ fs, ∀ x, Stack.Cell f.frameBase 32 x → cpu.mem x = s.cpu.mem x) :
    Nested { s with cpu } fs l := by
  refine ⟨h.on, h.coherent, h.vectored, h.stack, h.vectors, ?_, fun f hf => ?_, h.even⟩
  · have hexceptions := h.exceptions
    rw [Core.exceptions, List.map_cons] at hexceptions ⊢
    rw [hexc]
    exact hexceptions
  · rw [← h.frames f hf]
    exact Stack.popAll_congr (hmem f hf) (by decide)

/-- Something happens at the NVIC, but no exception is taken or completed. -/
theorem Nested.plain {o : NvicEnv × Nvic.Op} {nvic : Nvic} (h : Nested s fs l)
    (ho : ∀ a ∈ s.nvic.acts o.2, a.plain = true ∧ a.vectored = true ∧ a.leaves s.nvic.gic l = true)
    (ht : s.nvic.step o = .ok nvic) : Nested { s with nvic } fs l := by
  have hrun := Nvic.step_acts ht
  refine ⟨Nvic.On.step h.on ht, Nvic.coherent_step h.on h.coherent ht, ?_, ?_, h.vectors, h.exceptions,
    h.frames, h.even⟩
  · exact h.vectored.run h.on (fun a ha => ⟨(ho a ha).1, (ho a ha).2.1⟩) hrun
  · exact h.stack.same (same_run (fun a ha => ⟨(ho a ha).1, (ho a ha).2.2⟩) hrun)

theorem Nested.raise {excp : Excp} (h : Nested s fs l) (hirq : excp ≠ .irq) (hexit : excp ≠ .exceptionExit)
    (ht : s.doInterrupt excp = .ok t) : Nested t fs l := by
  have hpend : ∀ irq : Fin 16, (irq : ℕ) ≠ 0 → Nested { s with nvic := s.nvic.setPending irq } fs l := by
    intro irq h0
    refine h.plain (o := (⟨0, .init⟩, .setPending irq)) ?_ rfl
    intro a ha
    rw [List.mem_singleton.1 ha]
    exact ⟨rfl, decide_eq_true h0, rfl⟩
  cases excp with
  | udef =>
    cases ht
    exact hpend 6 (by decide)
  | swi =>
    cases ht
    exact hpend 11 (by decide)
  | prefetchAbort | dataAbort =>
    cases ht
    exact hpend 4 (by decide)
  | bkpt =>
    cases ht
    exact hpend 12 (by decide)
  | irq => exact absurd rfl hirq
  | exceptionExit => exact absurd rfl hexit

/-- An interrupt is taken. -/
theorem Nested.irq (h : Nested s fs l) (heven : (s.cpu.regs 15).getLsbD 0 = false)
    (hroom : ∀ f ∈ fs, Stack.Apart s.cpu.frameBase f.frameBase 32)
    (ht : s.doInterrupt .irq = .ok t) : Nested t (s.cpu :: fs) (s.nvic.gic.currentPending :: l) := by
  obtain ⟨⟨v, nvic⟩, hack, ht⟩ := bind_eq_ok.1 ht
  cases ht
  obtain ⟨hact, rfl⟩ := Nvic.acknowledgeIrq_ok hack
  have hstep : s.nvic.step (⟨0, .init⟩, .acknowledge) = .ok nvic := by
    show s.nvic.acknowledgeIrq.map Prod.snd = _
    rw [hack]
    rfl
  have hcur : HasVector s.nvic.gic.currentPending := h.vectored.current (act_acknowledge hact).1
  have hlt : s.nvic.gic.currentPending < numIrq := by
    rcases h.coherent with ⟨hnone, -⟩ | ⟨hlt, -⟩
    · exact absurd hnone (act_acknowledge hact).1
    · exact hlt
  have hentered := s.cpu.entered_enter (BitVec.ofNat 9 (Nvic.toVector s.nvic.gic.currentPending)) s.cpu.excReturn
    nvic.vecbase
  refine ⟨Nvic.On.step h.on hstep, Nvic.coherent_step h.on h.coherent hstep, h.vectored.acknowledge h.on hact,
    h.stack.acknowledge hlt hact, ?_, ?_, ?_, ?_⟩
  · rw [List.forall_mem_cons]
    exact ⟨hcur, h.vectors⟩
  · have hvector : Nvic.toVector s.nvic.gic.currentPending < 2 ^ 9 := by
      have hlt' : s.nvic.gic.currentPending < 96 := hlt
      unfold Nvic.toVector
      split <;> omega
    rw [exceptions_cons, h.exceptions, List.map_cons, List.cons_append]
    dsimp only
    rw [ArmCpu.enter_exception, BitVec.toNat_ofNat, Nat.mod_eq_of_lt hvector]
  · rw [List.forall_mem_cons]
    refine ⟨hentered.popAll, fun f hf => ?_⟩
    rw [← h.frames f hf]
    exact Stack.popAll_congr (fun x hx => hentered.mem_of_not ((hroom f hf).not_cell hx)) (by decide)
  · rw [List.forall_mem_cons]
    exact ⟨heven, h.even⟩

/-- A handler returns. -/
theorem Nested.exit {f : ArmCpu} (h : Nested s (f :: fs) l) (hret : f.Returns s.cpu) :
    ∃ t, s.doInterrupt .exceptionExit = .ok t ∧ f.SameContext t.cpu ∧ Nested t fs l.tail := by
  have hexceptions : s.cpu.exception.toNat :: (f :: fs).map (fun s => s.exception.toNat) = l.map Nvic.toVector ++ [0] :=
    h.exceptions
  cases l with
  | nil => simp at hexceptions
  | cons irq l =>
    obtain ⟨hirq, hrest⟩ := List.cons.inj hexceptions
    have hvec : HasVector irq := h.vectors irq List.mem_cons_self
    have hne : s.cpu.exception ≠ 0 := by
      intro h0
      rw [h0] at hirq
      exact hvec.toVector_ne_zero hirq.symm
    have hsame := ArmCpu.sameContext_leave (h.even f List.mem_cons_self) hret (h.frames f List.mem_cons_self)
    obtain ⟨g, hg, hstack⟩ := h.stack.complete irq
    rw [List.erase_cons_head] at hstack
    have hcomplete : s.nvic.completeIrq s.cpu.exception.toNat = .ok { s.nvic with gic := g } := by
      rw [Nvic.completeIrq, hirq, hvec.fromVector, hg]
      rfl
    have hstep : s.nvic.step (⟨0, .init⟩, .complete s.cpu.exception.toNat) = .ok { s.nvic with gic := g } := hcomplete
    refine ⟨⟨s.cpu.leave, { s.nvic with gic := g }⟩, ?_, hsame, ?_⟩
    · rw [doInterrupt, exceptionExit, if_pos hne, hcomplete]
      rfl
    refine ⟨Nvic.On.step h.on hstep, Nvic.coherent_step h.on h.coherent hstep, h.vectored.complete h.on hg, hstack,
      fun x hx => h.vectors x (List.mem_cons_of_mem irq hx), ?_, fun x hx => ?_,
      fun x hx => h.even x (List.mem_cons_of_mem f hx)⟩
    · refine Eq.trans ?_ hrest
      rw [Core.exceptions, List.map_cons, List.map_cons, hsame.exception]
    · dsimp only
      rw [ArmCpu.leave_mem]
      exact h.frames x (List.mem_cons_of_mem f hx)

theorem Nested.step {p q : Core × List ArmCpu} {o : Op} (h : Nested p.1 p.2 l) (ho : Obeys p o)
    (hq : Core.step p o = .ok q) : ∃ l, Nested q.1 q.2 l := by
  obtain ⟨s, fs⟩ := p
  cases o with
  | instr t =>
    cases hq
    refine ⟨l, h.code rfl fun f hf x hx => ?_⟩
    exact Stack.cell_forall (p := fun x => t.mem x = s.cpu.mem x) (ho f hf) hx
  | msr reg val =>
    obtain ⟨cpu, hcpu, hq⟩ := bind_eq_ok.1 hq
    cases hq
    obtain ⟨hexc, hmem⟩ := ArmCpu.v7mMsr_exception_mem hcpu
    exact ⟨l, h.code hexc fun f _ x _ => congrFun hmem x⟩
  | nvic o =>
    obtain ⟨nvic, hnvic, hq⟩ := bind_eq_ok.1 hq
    cases hq
    refine ⟨l, h.plain (fun a ha => ?_) hnvic⟩
    have ha' := ho a ha
    rwa [h.active] at ha'
  | raise excp =>
    obtain ⟨t, ht, hq⟩ := bind_eq_ok.1 hq
    cases hq
    exact ⟨l, h.raise ho.1 ho.2 ht⟩
  | poll =>
    obtain ⟨t, ht, hq⟩ := bind_eq_ok.1 hq
    cases hq
    unfold poll at ht
    split at ht
    · rename_i hirq
      obtain ⟨heven, hroom⟩ := ho hirq
      exact ⟨_, by simpa only [if_pos hirq] using h.irq heven hroom ht⟩
    · rename_i hirq
      cases ht
      exact ⟨l, by simpa only [if_neg hirq] using h⟩
  | magic =>
    obtain ⟨t, ht, hq⟩ := bind_eq_ok.1 hq
    cases hq
    unfold magic at ht
    split at ht
    · rename_i hmagic
      obtain ⟨f, hf, hret⟩ := ho hmagic
      obtain ⟨gs, rfl⟩ := List.head?_eq_some_iff.1 hf
      obtain ⟨u, hu, -, hnested⟩ := h.exit hret
      rw [ht] at hu
      cases hu
      exact ⟨l.tail, by simpa only [if_pos hmagic, List.tail_cons] using hnested⟩
    · rename_i hmagic
      cases ht
      exact ⟨l, by simpa only [if_neg hmagic] using h⟩

/-- **Exceptions nest.**  When the code does its part, the list of active interrupts at the NVIC is that of
    the contexts, a request for an interrupt is always taken, and the return of a handler resumes the
    context that was interrupted last. -/
theorem exceptions_nest {cpu : ArmCpu} {ops : List Op} (hcpu : cpu.exception = 0)
    (hobeys : ∀ p o, Takes step (⟨cpu, Nvic.start⟩, []) ops p o → Obeys p o)
    (hs : run step (⟨cpu, Nvic.start⟩, []) ops = .ok (s, fs)) :
    s.nvic.gic.Stack (active (s, fs)) ∧ exceptions (s, fs) = (active (s, fs)).map Nvic.toVector ++ [0] ∧
      (∃ t, s.poll = .ok t) ∧
      ∀ f ∈ fs.head?, 0xfffffff0#32 ≤ s.cpu.regs 15 → f.Returns s.cpu →
        ∃ t, s.magic = .ok t ∧ f.SameContext t.cpu := by
  have hinv : ∃ l, Nested s fs l := by
    refine history_inv (P := fun _ (p : Core × List ArmCpu) => ∃ l, Nested p.1 p.2 l) ?_ ?_ hobeys hs
    · rintro - p o q ⟨l, h⟩ ho hq
      exact h.step ho hq
    · refine ⟨[], Nvic.start_on, .inl ⟨rfl, rfl⟩, ?_, Nvic.start_stack, by simp, ?_, by simp, by simp⟩
      · refine ⟨rfl, rfl, fun irq henabled => .inl (of_decide_eq_true henabled), fun hne => absurd rfl hne⟩
      · simp [exceptions, hcpu]
  obtain ⟨l, h⟩ := hinv
  rw [h.active]
  refine ⟨h.stack, h.exceptions, ?_, ?_⟩
  · unfold poll
    split
    · rename_i hirq
      have hrequest : s.nvic.gic.parentIrq = true := (Bool.and_eq_true_iff.1 hirq).1
      obtain ⟨v, nvic, hack⟩ := Nvic.exists_acknowledgeIrq.2 (h.coherent.acknowledge_iff.2 hrequest)
      rw [doInterrupt, hack]
      exact ⟨_, rfl⟩
    · exact ⟨s, rfl⟩
  · intro f hf hmagic hret
    obtain ⟨gs, rfl⟩ := List.head?_eq_some_iff.1 hf
    obtain ⟨t, ht, hsame, -⟩ := h.exit hret
    rw [magic, if_pos hmagic]
    exact ⟨t, ht, hsame⟩

/-- A thread at `0x08000100`, with its stack at the end of the RAM. -/
def thread : ArmCpu :=
  { regs := Function.update (Function.update 0 13 0x20005000) 15 0x08000100
    NF := 0
    ZF := 1
    CF := false
    VF := 0
    QF := false
    thumb := true
    condexecBits := 0
    primask := false
    faultmask := false
    otherSp := 0
    basepri := 0
    control := 0
    currentSp := false
    exception := 0
    mem := 0 }

/-- A handler that has changed `R0` and returns. -/
def handlerReturns : ArmCpu :=
  { thread with
    regs := Function.update (Function.update (Function.update 0 0 7) 13 0x20004fe0) 15 0xfffffff8
    mem := Stack.pushAll 0 0x20005000 [0x01000000, 0x08000100, 0, 0, 0, 0, 0, 0] }

/-- The thread makes a supervisor call. -/
def supervisorCall : List Op := [.raise .swi, .poll, .instr handlerReturns]

theorem exceptions_nest_supervisorCall : ∃ s fs, run step (⟨thread, Nvic.start⟩, []) supervisorCall = .ok (s, fs) ∧
    s.nvic.gic.Stack (active (s, fs)) ∧ active (s, fs) = [11] ∧
    ∃ f ∈ fs.head?, ∃ t, s.magic = .ok t ∧ f.SameContext t.cpu := by
  have hmeets : Meets step Obeys (⟨thread, Nvic.start⟩, []) supervisorCall := by decide +kernel
  have hrun : ∃ p, run step (⟨thread, Nvic.start⟩, []) supervisorCall = .ok p ∧ active p = [11] ∧
      0xfffffff0#32 ≤ p.1.cpu.regs 15 ∧ ∃ f ∈ p.2.head?, f.Returns p.1.cpu := by
    rw [← post_ok]
    decide +kernel
  obtain ⟨⟨s, fs⟩, hs, hactive, hpc, f, hf, hret⟩ := hrun
  obtain ⟨hstack, -, -, hexit⟩ := exceptions_nest rfl hmeets.takes hs
  exact ⟨s, fs, hs, hstack, hactive, f, hf, hexit f hf hpc hret⟩

end Core

end Bluepill
