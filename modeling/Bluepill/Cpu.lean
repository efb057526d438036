/-
  The exceptions of the core (`target-arm/helper.c` and `cpu.h`, M profile, and the places in
  `cpu-exec.c` and `translate.c` that raise them).

  An interrupt pushes a frame of eight words on the stack in use, switches to the main stack and
  jumps to the handler, with a magic value in `LR`; a jump to such a value is an exception of its
  own, which completes the interrupt at the NVIC and pops the frame.

  `regs[15]` is the program counter, and `regs[13]` the stack pointer in use; the other one is
  `otherSp`.  Of `daif`, the bits for `PRIMASK` and `FAULTMASK` are kept.  `CF`, `QF` and `thumb`
  are `0` or `1` in the source.  Every address is memory, and semihosting is off.
-/
import Bluepill.Lib.Stack
import Bluepill.Nvic

namespace Bluepill

/-- `CPUARMState`, with the memory. -/
structure ArmCpu where
  regs : Fin 16 → BitVec 32
  NF : BitVec 32
  ZF : BitVec 32
  CF : Bool
  VF : BitVec 32
  QF : Bool
  thumb : Bool
  condexecBits : BitVec 8
  primask : Bool
  faultmask : Bool
  otherSp : BitVec 32
  basepri : BitVec 32
  control : BitVec 32
  currentSp : Bool
  exception : BitVec 9
  mem : Stack.Mem

def CPSR_NZCV : BitVec 32 := 0xf0000000
def CPSR_Z : BitVec 32 := 0x40000000
def CPSR_Q : BitVec 32 := 0x08000000
def CPSR_IT_0_1 : BitVec 32 := 0x06000000
def CPSR_IT_2_7 : BitVec 32 := 0xfc00

namespace ArmCpu

variable (s : ArmCpu)

instance : NeZero 16 := ⟨by decide⟩

def setReg (r : Fin 16) (val : BitVec 32) : ArmCpu := { s with regs := Function.update s.regs r val }

/-! ## The status register -/

/-- `xpsr_read`. -/
def xpsrRead : BitVec 32 :=
  s.NF &&& 0x80000000#32 ||| (if s.ZF = 0 then 1#32 <<< 30 else 0#32) ||| (if s.CF then 1#32 <<< 29 else 0#32)
    ||| (s.VF &&& 0x80000000#32) >>> 3 ||| (if s.QF then 1#32 <<< 27 else 0#32) ||| (if s.thumb then 1#32 <<< 24 else 0#32)
    ||| (s.condexecBits.setWidth 32 &&& 3#32) <<< 25 ||| (s.condexecBits.setWidth 32 &&& 0xfc#32) <<< 8
    ||| s.exception.setWidth 32

/-- `xpsr_write`. -/
def xpsrWrite (val mask : BitVec 32) : ArmCpu :=
  let s := if mask &&& CPSR_NZCV != 0 then
    { s with
      ZF := ~~~ val &&& CPSR_Z
      NF := val
      CF := val.getLsbD 29
      VF := val <<< 3 &&& 0x80000000#32 } else s
  let s := if mask &&& CPSR_Q != 0 then { s with QF := val &&& CPSR_Q != 0 } else s
  let s := if mask.getLsbD 24 then { s with thumb := val.getLsbD 24 } else s
  let s := if mask &&& CPSR_IT_0_1 != 0 then
    { s with condexecBits := s.condexecBits &&& ~~~ 3#8 ||| (val >>> 25 &&& 3#32).setWidth 8 } else s
  let s := if mask &&& CPSR_IT_2_7 != 0 then
    { s with condexecBits := s.condexecBits &&& 3#8 ||| (val >>> 8 &&& 0xfc#32).setWidth 8 } else s
  if mask &&& 0x1ff#32 != 0 then { s with exception := (val &&& 0x1ff#32).setWidth 9 } else s

/-! ## The stacks -/

/-- `v7m_push`. -/
def v7mPush (val : BitVec 32) : ArmCpu :=
  let sp := s.regs 13 - 4
  { s.setReg 13 sp with mem := Stack.store s.mem sp val }

/-- `v7m_pop`. -/
def v7mPop : BitVec 32 × ArmCpu := (Stack.load s.mem (s.regs 13), s.setReg 13 (s.regs 13 + 4))

/-- `v7m_pop` into a register. -/
def popReg (r : Fin 16) : ArmCpu := s.v7mPop.2.setReg r s.v7mPop.1

/-- `switch_v7m_sp`. -/
def switchSp (process : Bool) : ArmCpu :=
  if s.currentSp ≠ process then { s.setReg 13 s.otherSp with otherSp := s.regs 13, currentSp := process }
  else s

/-- The stack pointer of the process stack, or of the main one. -/
def sp (process : Bool) : BitVec 32 := if s.currentSp = process then s.regs 13 else s.otherSp

/-! ## Special registers -/

/-- `v7m_msr`; the register must exist. -/
def v7mMsr (reg : ℕ) (val : BitVec 32) : Except Fault ArmCpu :=
  match reg with
  | 0 | 1 => .ok (s.xpsrWrite val 0xf8000000)
  | 2 | 3 => .ok (s.xpsrWrite val 0xfe00fc00)
  | 5 => .ok s
  | 6 | 7 => .ok (s.xpsrWrite val 0x0600fc00)
  | 8 => .ok (if s.currentSp then { s with otherSp := val } else s.setReg 13 val)
  | 9 => .ok (if s.currentSp then s.setReg 13 val else { s with otherSp := val })
  | 16 => .ok { s with primask := val.getLsbD 0 }
  | 17 => .ok { s with basepri := val &&& 0xff }
  | 18 =>
    let val := val &&& 0xff
    .ok (if val ≠ 0 ∧ (val < s.basepri ∨ s.basepri = 0) then { s with basepri := val } else s)
  | 19 => .ok { s with faultmask := val.getLsbD 0 }
  | 20 => .ok (switchSp { s with control := val &&& 3 } (val &&& 2 != 0))
  | _ => .error (.hwError s!"Unimplemented system register write ({reg})\n")

/-! ## Entry and exit -/

/-- The registers of a frame, from the top of the stack on; the status register is below them. -/
def savedRegs : List (Fin 16) := [0, 1, 2, 3, 12, 14, 15]

/-- The magic value that an interrupt leaves in `LR`. -/
def excReturn : BitVec 32 :=
  0xfffffff1 ||| (if s.currentSp then 4 else 0) ||| (if s.exception = 0 then 8 else 0)

/-- The part of `arm_v7m_cpu_do_interrupt` after the interrupt has been acknowledged, with the status
    register and the magic value from before that. -/
def enter (xpsr lr vecbase : BitVec 32) : ArmCpu :=
  let odd := s.regs 13 &&& 4 != 0
  let s := if odd then s.setReg 13 (s.regs 13 - 4) else s
  let xpsr := if odd then xpsr ||| 0x200 else xpsr
  let s := (xpsr :: savedRegs.reverse.map s.regs).foldl v7mPush s
  let s := s.switchSp false
  let s := { s with condexecBits := 0 }
  let s := s.setReg 14 lr
  let addr := Stack.load s.mem (vecbase + s.exception.setWidth 32 * 4)
  { s.setReg 15 (addr &&& 0xfffffffe) with thumb := addr.getLsbD 0 }

/-- The end of `do_v7m_exception_exit`: the status register, and the alignment of the stack. -/
def popXpsr : ArmCpu :=
  let (xpsr, s) := s.v7mPop
  let s := s.xpsrWrite xpsr 0xfffffdff
  if xpsr &&& 0x200 != 0 then s.setReg 13 (s.regs 13 ||| 4) else s

/-- The part of `do_v7m_exception_exit` after the interrupt has been completed. -/
def leave : ArmCpu :=
  let s := s.switchSp (s.regs 15 &&& 4 != 0)
  let s := savedRegs.foldl popReg s
  (s.setReg 15 (s.regs 15 &&& 0xfffffffe)).popXpsr

end ArmCpu

/-- The CPU and its NVIC. -/
structure Core where
  cpu : ArmCpu
  nvic : Nvic

/-- The exceptions of QEMU that the M profile has. -/
inductive Excp where
  | udef
  | swi
  | prefetchAbort
  | dataAbort
  | bkpt
  | irq
  | exceptionExit
  deriving DecidableEq, Repr

namespace Core

variable (s : Core)

/-- `do_v7m_exception_exit`. -/
def exceptionExit : Except Fault Core := do
  let nvic ← if s.cpu.exception ≠ 0 then s.nvic.completeIrq s.cpu.exception.toNat else .ok s.nvic
  .ok ⟨s.cpu.leave, nvic⟩

/-- `arm_v7m_cpu_do_interrupt`. -/
def doInterrupt : Excp → Except Fault Core
  | .udef => .ok { s with nvic := s.nvic.setPending Nvic.ARMV7M_EXCP_USAGE }
  | .swi => .ok { s with nvic := s.nvic.setPending Nvic.ARMV7M_EXCP_SVC }
  | .prefetchAbort | .dataAbort => .ok { s with nvic := s.nvic.setPending Nvic.ARMV7M_EXCP_MEM }
  | .bkpt => .ok { s with nvic := s.nvic.setPending Nvic.ARMV7M_EXCP_DEBUG }
  | .irq => do
    let (irq, nvic) ← s.nvic.acknowledgeIrq
    let cpu := { s.cpu with exception := BitVec.ofNat 9 irq }
    .ok ⟨cpu.enter s.cpu.xpsrRead s.cpu.excReturn nvic.vecbase, nvic⟩
  | .exceptionExit => s.exceptionExit

/-- The test of `cpu_exec` for an interrupt, between two blocks of code. -/
def interruptible : Bool :=
  s.nvic.gic.parentIrq && (s.cpu.regs 15 < 0xfffffff0#32 || !s.cpu.primask)

/-- `cpu_exec`, between two blocks: an interrupt is taken if there is one. -/
def poll : Except Fault Core := if s.interruptible then s.doInterrupt .irq else .ok s

/-- The block of code at a magic address. -/
def magic : Except Fault Core := if 0xfffffff0#32 ≤ s.cpu.regs 15 then s.doInterrupt .exceptionExit else .ok s

end Core

end Bluepill
