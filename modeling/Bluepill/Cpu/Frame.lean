/-
  The frame of an exception.

  `frame s` is what an interrupt pushes when the context is `s`, the top of the stack first, and
  `frameBase s` where.  `Entered` says what the entry does to memory and to the registers;
  `sameContext_leave` is the other half: an exit at which the stacks, the registers outside of
  the frame and the words of the frame are as the entry left them restores the context, the
  flags and the alignment of the stack included.
-/
import Bluepill.Cpu
import Bluepill.Lib.Word

namespace Bluepill

namespace ArmCpu

variable {s : ArmCpu} {val : BitVec 32}

/-- The status register that an exit writes. -/
theorem xpsrWrite_all (s : ArmCpu) (val : BitVec 32) : s.xpsrWrite val 0xfffffdff =
    { s with
      ZF := ~~~ val &&& CPSR_Z
      NF := val
      CF := val.getLsbD 29
      VF := val <<< 3 &&& 0x80000000#32
      QF := val &&& CPSR_Q != 0
      thumb := val.getLsbD 24
      condexecBits := (s.condexecBits &&& ~~~ 3#8 ||| (val >>> 25 &&& 3#32).setWidth 8) &&& 3#8
        ||| (val >>> 8 &&& 0xfc#32).setWidth 8
      exception := (val &&& 0x1ff#32).setWidth 9 } := by
  rfl

/-- The bits of the status register. -/
def XPSR_BITS : BitVec 32 := 0xff00fdff

theorem xpsrRead_xpsrWrite (s : ArmCpu) (val : BitVec 32) :
    (s.xpsrWrite val 0xfffffdff).xpsrRead = val &&& XPSR_BITS := by
  have hz : (~~~ val &&& CPSR_Z = 0) ↔ val.getLsbD 30 = true := by
    have h : (~~~ val &&& CPSR_Z != 0) = !val.getLsbD 30 :=
      (Word.bitSet_eq (~~~ val) (b := 30) (by decide)).trans (by simp)
    rw [← not_iff_not, ← ne_eq, ← bne_iff_ne, h]
    simp
  have hq : (val &&& CPSR_Q != 0) = val.getLsbD 27 := Word.bitSet_eq val (b := 27) (by decide)
  rw [xpsrWrite_all]
  unfold xpsrRead
  simp only [hz, hq]
  refine BitVec.eq_of_getLsbD_eq fun i hi => ?_
  simp only [BitVec.getLsbD_or, BitVec.getLsbD_and, BitVec.getLsbD_shiftLeft, BitVec.getLsbD_ushiftRight,
    BitVec.getLsbD_setWidth, XPSR_BITS, Word.getLsbD_flag]
  interval_cases i <;> simp

theorem xpsrRead_and (s : ArmCpu) : s.xpsrRead &&& XPSR_BITS = s.xpsrRead := by
  refine BitVec.eq_of_getLsbD_eq fun i hi => ?_
  unfold xpsrRead
  have hz : (if s.ZF = 0 then 1#32 <<< 30 else 0#32) = if decide (s.ZF = 0) then 1#32 <<< 30 else 0#32 := by simp
  rw [hz]
  simp only [BitVec.getLsbD_or, BitVec.getLsbD_and, BitVec.getLsbD_shiftLeft, BitVec.getLsbD_ushiftRight,
    BitVec.getLsbD_setWidth, XPSR_BITS, Word.getLsbD_flag]
  interval_cases i <;> simp

/-! ## The stack pointer -/

/-- The stack pointer, aligned to eight bytes. -/
def alignedSp (s : ArmCpu) : BitVec 32 := if s.regs 13 &&& 4 != 0 then s.regs 13 - 4 else s.regs 13

/-- The status register that is pushed: bit 9 says that the stack pointer was not aligned. -/
def pushedXpsr (s : ArmCpu) : BitVec 32 := if s.regs 13 &&& 4 != 0 then s.xpsrRead ||| 0x200 else s.xpsrRead

theorem pushedXpsr_and (s : ArmCpu) : s.pushedXpsr &&& XPSR_BITS = s.xpsrRead := by
  unfold pushedXpsr
  split
  · rw [Word.or_and_of_and_eq_zero (by decide)]
    exact s.xpsrRead_and
  · exact s.xpsrRead_and

theorem pushedXpsr_odd (s : ArmCpu) : (s.pushedXpsr &&& 0x200 != 0) = (s.regs 13 &&& 4 != 0) := by
  have hbit : (s.pushedXpsr &&& 0x200 != 0) = s.pushedXpsr.getLsbD 9 := Word.bitSet_eq _ (b := 9) (by decide)
  have hclear : s.xpsrRead.getLsbD 9 = false := by
    rw [← s.xpsrRead_and, BitVec.getLsbD_and, show XPSR_BITS.getLsbD 9 = false by decide, Bool.and_false]
  rw [hbit, pushedXpsr]
  split
  · rename_i hodd
    rw [BitVec.getLsbD_or, hclear, hodd]
    rfl
  · rename_i hodd
    rw [hclear]
    exact (Bool.not_eq_true _ ▸ hodd).symm

/-- The alignment is undone. -/
theorem alignedSp_or (s : ArmCpu) :
    (if s.pushedXpsr &&& 0x200 != 0 then s.alignedSp ||| 4 else s.alignedSp) = s.regs 13 := by
  rw [pushedXpsr_odd, alignedSp]
  split
  · rename_i hodd
    have hbit : (s.regs 13 &&& 4 != 0) = (s.regs 13).getLsbD 2 := Word.bitSet_eq _ (b := 2) (by decide)
    rw [hbit] at hodd
    rw [show (4 : BitVec 32) = BitVec.twoPow 32 2 by decide]
    exact Word.sub_twoPow_or hodd
  · rfl

/-! ## Entry -/

/-- The words of the frame, from the top of the stack on. -/
def frame (s : ArmCpu) : List (BitVec 32) := savedRegs.map s.regs ++ [s.pushedXpsr]

/-- The address of the frame. -/
def frameBase (s : ArmCpu) : BitVec 32 := s.alignedSp - 32

theorem switchSp_regs {r : Fin 16} (hr : r ≠ 13) (p : Bool) : (s.switchSp p).regs r = s.regs r := by
  unfold switchSp
  split
  · exact Function.update_of_ne hr _ _
  · rfl

theorem switchSp_sp (p : Bool) : (s.switchSp p).regs 13 = s.sp p ∧ (s.switchSp p).otherSp = s.sp (!p) ∧
    (s.switchSp p).currentSp = p ∧ (s.switchSp p).mem = s.mem ∧ (s.switchSp p).exception = s.exception := by
  unfold switchSp sp setReg
  cases hs : s.currentSp <;> cases p <;> simp [hs]

@[simp] theorem sp_switchSp (p q : Bool) : (s.switchSp p).sp q = s.sp q := by
  obtain ⟨h13, hother, hcurrent, -⟩ := switchSp_sp (s := s) p
  unfold sp at h13 hother ⊢
  rw [h13, hother, hcurrent]
  cases p <;> cases q <;> cases s.currentSp <;> rfl

theorem foldl_v7mPush (ws : List (BitVec 32)) (s : ArmCpu) : ws.foldl v7mPush s =
    { s.setReg 13 (s.regs 13 - BitVec.ofNat 32 (4 * ws.length)) with
      mem := Stack.pushAll s.mem (s.regs 13) ws } := by
  induction ws generalizing s with
  | nil => simp [setReg, Stack.pushAll]
  | cons w ws ih =>
    rw [List.foldl_cons, ih]
    have hsp : s.regs 13 - 4 - BitVec.ofNat 32 (4 * ws.length) =
        s.regs 13 - BitVec.ofNat 32 (4 * (w :: ws).length) := by
      rw [List.length_cons, Nat.mul_succ, Nat.add_comm, BitVec.ofNat_add, sub_sub]
      rfl
    simp only [v7mPush, setReg, Stack.pushAll, Function.update_self, Function.update_idem, hsp]

/-- **What an interrupt does to the CPU.** -/
structure Entered (s t : ArmCpu) : Prop where
  mem : t.mem = Stack.pushAll s.mem s.alignedSp s.frame.reverse
  currentSp : t.currentSp = false
  sp : t.sp s.currentSp = s.frameBase
  other : t.sp (!s.currentSp) = s.otherSp
  regs : ∀ r, r ≠ 13 → r ≠ 14 → r ≠ 15 → t.regs r = s.regs r

theorem enter_exception (s : ArmCpu) (xpsr lr vecbase : BitVec 32) :
    (s.enter xpsr lr vecbase).exception = s.exception := by
  have hpush : ∀ (ws : List (BitVec 32)) (a : ArmCpu), (ws.foldl v7mPush a).exception = a.exception := by
    intro ws a
    rw [foldl_v7mPush]
    rfl
  unfold enter
  dsimp only [setReg]
  rw [(switchSp_sp false).2.2.2.2, hpush]
  split <;> rfl

theorem entered_enter (s : ArmCpu) (e : BitVec 9) (lr vecbase : BitVec 32) :
    Entered s (enter { s with exception := e } s.xpsrRead lr vecbase) := by
  obtain ⟨a, ha⟩ : ∃ a : ArmCpu, a = s.frame.reverse.foldl v7mPush { s.setReg 13 s.alignedSp with exception := e } :=
    ⟨_, rfl⟩
  have henter : enter { s with exception := e } s.xpsrRead lr vecbase =
      { ({ (a.switchSp false) with condexecBits := 0 }.setReg 14 lr).setReg 15
          (Stack.load (a.switchSp false).mem (vecbase + (a.switchSp false).exception.setWidth 32 * 4) &&& 0xfffffffe) with
        thumb := (Stack.load (a.switchSp false).mem
          (vecbase + (a.switchSp false).exception.setWidth 32 * 4)).getLsbD 0 } := by
    have hsp : (if s.regs 13 &&& 4 != 0 then setReg { s with exception := e } 13 (s.regs 13 - 4)
        else { s with exception := e }) = { s.setReg 13 s.alignedSp with exception := e } := by
      unfold alignedSp
      split <;> simp [setReg]
    unfold enter
    dsimp only
    rw [hsp, ha]
    rfl
  have hpush := foldl_v7mPush s.frame.reverse { s.setReg 13 s.alignedSp with exception := e }
  rw [← ha] at hpush
  have hmem : a.mem = Stack.pushAll s.mem s.alignedSp s.frame.reverse := by
    simp [hpush, setReg]
  have hsp : a.regs 13 = s.frameBase := by
    simp [hpush, setReg, frame, savedRegs, frameBase]
  have hregs : ∀ r, r ≠ 13 → a.regs r = s.regs r := by
    intro r hr
    simp [hpush, setReg, hr]
  have hcurrent : a.currentSp = s.currentSp ∧ a.otherSp = s.otherSp := by
    simp [hpush, setReg]
  obtain ⟨-, -, hmain, hmem', -⟩ := switchSp_sp (s := a) false
  have hstack : ∀ q, sp (enter { s with exception := e } s.xpsrRead lr vecbase) q = a.sp q := by
    intro q
    rw [henter, ← sp_switchSp (s := a) false]
    simp [sp, setReg]
  refine ⟨?_, ?_, ?_, ?_, fun r h13 h14 h15 => ?_⟩
  · rw [henter]
    exact hmem'.trans hmem
  · rw [henter]
    exact hmain
  · rw [hstack, sp, if_pos hcurrent.1, hsp]
  · rw [hstack, sp, if_neg (by simp [hcurrent.1]), hcurrent.2]
  · rw [henter]
    simp [setReg, h14, h15, switchSp_regs h13, hregs r h13]

theorem alignedSp_eq (s : ArmCpu) :
    s.alignedSp = s.frameBase + BitVec.ofNat 32 (4 * s.frame.reverse.length) :=
  (sub_add_cancel _ _).symm

/-- The frame is on the stack. -/
theorem Entered.popAll {t : ArmCpu} (h : Entered s t) : Stack.popAll t.mem s.frameBase 8 = s.frame := by
  have hlength : 4 * s.frame.reverse.length ≤ 2 ^ 32 := show 4 * 8 ≤ 2 ^ 32 by decide
  rw [h.mem, alignedSp_eq]
  exact (Stack.popAll_pushAll hlength).trans s.frame.reverse_reverse

/-- Nothing else in memory changes. -/
theorem Entered.mem_of_not {t : ArmCpu} {x : BitVec 32} (h : Entered s t) (hx : ¬ Stack.Cell s.frameBase 32 x) :
    t.mem x = s.mem x := by
  rw [h.mem, alignedSp_eq]
  exact Stack.pushAll_of_not hx

/-! ## Exit -/

theorem map_regs_foldl_popReg (rs : List (Fin 16)) (hrs : rs.Nodup) (h13 : 13 ∉ rs) (s : ArmCpu) :
    rs.map (rs.foldl popReg s).regs = Stack.popAll s.mem (s.regs 13) rs.length ∧
      (rs.foldl popReg s).regs 13 = s.regs 13 + BitVec.ofNat 32 (4 * rs.length) ∧
      (∀ r, r ≠ 13 → r ∉ rs → (rs.foldl popReg s).regs r = s.regs r) ∧
      (rs.foldl popReg s).mem = s.mem ∧ (rs.foldl popReg s).otherSp = s.otherSp ∧
      (rs.foldl popReg s).currentSp = s.currentSp := by
  induction rs generalizing s with
  | nil => simp [Stack.popAll]
  | cons r rs ih =>
    rw [List.nodup_cons] at hrs
    rw [List.mem_cons, not_or] at h13
    obtain ⟨hr, hrs⟩ := hrs
    obtain ⟨hmap, hsp, hother, hmem, hosp, hcur⟩ := ih hrs h13.2 (s.popReg r)
    have hpop13 : (s.popReg r).regs 13 = s.regs 13 + 4 := by
      simp [popReg, v7mPop, setReg, h13.1]
    have hpopr : (s.popReg r).regs r = Stack.load s.mem (s.regs 13) := by
      simp [popReg, v7mPop, setReg]
    refine ⟨?_, ?_, ?_, hmem, hosp, hcur⟩
    · rw [List.map_cons, List.foldl_cons, hmap, hother r (Ne.symm h13.1) hr, hpopr, hpop13]
      rfl
    · rw [List.foldl_cons, hsp, hpop13, List.length_cons, Nat.mul_succ, Nat.add_comm, BitVec.ofNat_add,
        ← add_assoc]
      rfl
    · intro x hx hnot
      rw [List.mem_cons, not_or] at hnot
      rw [List.foldl_cons, hother x hx hnot.2]
      simp [popReg, v7mPop, setReg, hx, hnot.1]

/-- The context of a program: the registers, the stack pointers and the status register. -/
structure SameContext (s t : ArmCpu) : Prop where
  regs : t.regs = s.regs
  otherSp : t.otherSp = s.otherSp
  currentSp : t.currentSp = s.currentSp
  xpsr : t.xpsrRead = s.xpsrRead

/-- A handler that has run in the frame of `s` and returns: it jumps to the magic value it was given, its
    stacks are as it found them, and so are the registers that are not in the frame. -/
structure Returns (s t : ArmCpu) : Prop where
  magic : (t.regs 15 &&& 4 != 0) = s.currentSp
  sp : t.sp s.currentSp = s.frameBase
  other : t.sp (!s.currentSp) = s.otherSp
  regs : ∀ r, r ≠ 13 → r ∉ savedRegs → t.regs r = s.regs r

instance (s t : ArmCpu) : Decidable (Returns s t) :=
  decidable_of_iff ((t.regs 15 &&& 4 != 0) = s.currentSp ∧ t.sp s.currentSp = s.frameBase ∧
      t.sp (!s.currentSp) = s.otherSp ∧ ∀ r, r ≠ 13 → r ∉ savedRegs → t.regs r = s.regs r)
    ⟨fun h => ⟨h.1, h.2.1, h.2.2.1, h.2.2.2⟩, fun h => ⟨h.magic, h.sp, h.other, h.regs⟩⟩

theorem even_and {x : BitVec 32} (h : x.getLsbD 0 = false) : x &&& 0xfffffffe = x := by
  rw [show (0xfffffffe : BitVec 32) = ~~~ BitVec.twoPow 32 0 by decide]
  exact Word.and_not_twoPow h

/-- **The exit restores the context.** -/
theorem sameContext_leave {t : ArmCpu} (hpc : (s.regs 15).getLsbD 0 = false) (h : Returns s t)
    (hframe : Stack.popAll t.mem s.frameBase 8 = s.frame) : SameContext s t.leave := by
  obtain ⟨a, ha⟩ : ∃ a, a = t.switchSp s.currentSp := ⟨_, rfl⟩
  obtain ⟨hsp, hother, hcurrent, hmem, -⟩ := switchSp_sp (s := t) s.currentSp
  rw [← ha] at hsp hother hcurrent hmem
  rw [h.sp] at hsp
  rw [h.other] at hother
  obtain ⟨b, hb⟩ : ∃ b, b = savedRegs.foldl popReg a := ⟨_, rfl⟩
  obtain ⟨hmap, hsp', hregs, hmem', hother', hcurrent'⟩ :=
    map_regs_foldl_popReg savedRegs (by decide) (by decide) a
  rw [← hb] at hmap hsp' hregs hmem' hother' hcurrent'
  have hlength : savedRegs.length = 7 := rfl
  rw [hsp, hmem, hlength] at hmap
  rw [hsp, hlength] at hsp'
  -- the frame, register by register, and then the status register
  rw [Stack.popAll_succ, frame] at hframe
  obtain ⟨hsaved, hxpsr⟩ := List.append_inj hframe (by rw [← hmap, List.length_map, List.length_map])
  rw [← hmap, List.map_inj_left] at hsaved
  rw [List.singleton_inj] at hxpsr
  have hload : (b.setReg 15 (b.regs 15 &&& 0xfffffffe)).v7mPop.1 = s.pushedXpsr := by
    rw [← hxpsr, ← hmem, ← hmem', ← hsp']
    rfl
  obtain ⟨c, hc⟩ : ∃ c : ArmCpu,
    c = (b.setReg 15 (b.regs 15 &&& 0xfffffffe)).v7mPop.2.xpsrWrite s.pushedXpsr 0xfffffdff := ⟨_, rfl⟩
  have hleave : t.leave = if s.pushedXpsr &&& 0x200 != 0 then c.setReg 13 (c.regs 13 ||| 4) else c := by
    unfold leave
    rw [h.magic, ← ha]
    dsimp only
    rw [← hb, popXpsr]
    dsimp only
    rw [hload, ← hc]
  have hcxpsr : c.xpsrRead = s.xpsrRead := by
    rw [hc, xpsrRead_xpsrWrite, pushedXpsr_and]
  rw [xpsrWrite_all] at hc
  have hcregs : c.regs = Function.update s.regs 13 s.alignedSp := by
    have hc' : c.regs = Function.update (Function.update b.regs 15 (b.regs 15 &&& 0xfffffffe)) 13 (b.regs 13 + 4) := by
      rw [hc]
      rfl
    rw [hc']
    funext r
    by_cases h13 : r = 13
    · subst h13
      rw [Function.update_self, Function.update_self, hsp', frameBase, add_assoc]
      exact sub_add_cancel _ _
    rw [Function.update_of_ne h13, Function.update_of_ne h13]
    by_cases hr : r ∈ savedRegs
    · rw [← hsaved r hr]
      by_cases h15 : r = 15
      · subst h15
        rw [Function.update_self, hsaved 15 hr]
        exact even_and hpc
      · exact Function.update_of_ne h15 _ _
    · have h15 : r ≠ 15 := by
        rintro rfl
        exact hr (by decide)
      rw [Function.update_of_ne h15, hregs r h13 hr, ha, switchSp_regs h13]
      exact h.regs r h13 hr
  have hcother : c.otherSp = s.otherSp := by
    rw [hc]
    exact hother'.trans hother
  have hccurrent : c.currentSp = s.currentSp := by
    rw [hc]
    exact hcurrent'.trans hcurrent
  have halign := s.alignedSp_or
  rw [hleave]
  split
  · rename_i hodd
    rw [if_pos hodd] at halign
    refine ⟨?_, hcother, hccurrent, hcxpsr⟩
    rw [setReg, hcregs, Function.update_self, Function.update_idem, halign, Function.update_eq_self]
  · rename_i hodd
    rw [if_neg hodd] at halign
    refine ⟨?_, hcother, hccurrent, hcxpsr⟩
    rw [hcregs, halign, Function.update_eq_self]

theorem popXpsr_mem (s : ArmCpu) : s.popXpsr.mem = s.mem := by
  unfold popXpsr v7mPop
  dsimp only
  rw [xpsrWrite_all]
  split <;> rfl

theorem leave_mem (s : ArmCpu) : s.leave.mem = s.mem := by
  obtain ⟨-, -, -, hmem, -, -⟩ := map_regs_foldl_popReg savedRegs (by decide) (by decide)
    (s.switchSp (s.regs 15 &&& 4 != 0))
  unfold leave
  rw [popXpsr_mem, setReg, hmem]
  exact (switchSp_sp _).2.2.2.1

/-- The number of the exception is part of the status register. -/
theorem xpsrRead_exception (s : ArmCpu) : s.xpsrRead.setWidth 9 = s.exception := by
  refine BitVec.eq_of_getLsbD_eq fun i hi => ?_
  unfold xpsrRead
  have hz : (if s.ZF = 0 then 1#32 <<< 30 else 0#32) = if decide (s.ZF = 0) then 1#32 <<< 30 else 0#32 := by simp
  rw [hz]
  simp only [BitVec.getLsbD_setWidth, BitVec.getLsbD_or, BitVec.getLsbD_and, BitVec.getLsbD_shiftLeft,
    BitVec.getLsbD_ushiftRight, Word.getLsbD_flag]
  interval_cases i <;> simp

theorem SameContext.exception {t : ArmCpu} (h : SameContext s t) : t.exception = s.exception := by
  rw [← t.xpsrRead_exception, ← s.xpsrRead_exception, h.xpsr]

end ArmCpu

end Bluepill
