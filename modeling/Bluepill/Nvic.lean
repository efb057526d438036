/-
  The NVIC and the system controller (`hw/intc/armv7m_nvic.c`).

  The registers from `0x100` to `0xcff` are those of the GIC, the others those of the system
  controller, with the timer SysTick.  What an operation takes from outside are the virtual
  time and the scales of SysTick, which follow `HCLK` (`NvicEnv`).  `vecbase` belongs to the
  CPU; only the register `0xd08` writes it.
-/
import Bluepill.Nvic.Gic
import Bluepill.Systick

namespace Bluepill

/-- `systick` in `nvic_state`. -/
structure SystickTimer where
  control : BitVec 32
  reload : BitVec 32
  tick : BitVec 64
  timer : Option (BitVec 64)

/-- `nvic_state`. -/
structure Nvic where
  gic : Gic
  systick : SystickTimer
  vecbase : BitVec 32

structure NvicEnv where
  now : BitVec 64
  scales : Systick

def SYSTICK_ENABLE : BitVec 32 := 1
def SYSTICK_TICKINT : BitVec 32 := 2
def SYSTICK_CLKSOURCE : BitVec 32 := 4
def SYSTICK_COUNTFLAG : BitVec 32 := 0x10000

namespace SystickTimer

variable (env : NvicEnv) (s : SystickTimer)

/-- A flag of the control register. -/
def has (mask : BitVec 32) : Bool := s.control &&& mask != 0

/-- `systick_scale`. -/
def scale : BitVec 64 :=
  if s.has SYSTICK_CLKSOURCE then env.scales.systemClockScale.signExtend 64
  else env.scales.externalRefClockScale.signExtend 64

/-- `timer_mod` for the time `tick`. -/
def mod : SystickTimer := { s with timer := some (timerMod s.tick) }

/-- `systick_reload`. -/
def reloadTimer (reset : Bool) : SystickTimer :=
  if !s.has SYSTICK_ENABLE then s
  else
    let s := if reset then { s with tick := env.now } else s
    mod { s with tick := s.tick + (s.reload + 1).setWidth 64 * s.scale env }

/-- `systick_timer_tick`, but for the interrupt. -/
def tickTimer : SystickTimer :=
  let s := { s with control := s.control ||| SYSTICK_COUNTFLAG, timer := none }
  if s.reload = 0 then { s with control := s.control &&& ~~~ SYSTICK_ENABLE }
  else s.reloadTimer env false

/-- The current value, in `nvic_readl`. -/
def current : Except Fault (BitVec 32) :=
  if !s.has SYSTICK_ENABLE then .ok 0
  else if s.tick.sle env.now then .ok 0
  else if s.scale env = 0 then .error .divByZero
  else
    let val : BitVec 32 := ((s.tick - (env.now + 1)).sdiv (s.scale env) + 1).setWidth 32
    -- during the first tick the counter still shows zero
    .ok (if s.reload < val then 0 else val)

/-- A write to the control register, in `nvic_writel`. -/
def writeControl (value : BitVec 32) : SystickTimer :=
  let oldval := s.control
  let s := { s with control := s.control &&& 0xfffffff8 ||| value &&& 7 }
  if (oldval ^^^ value) &&& SYSTICK_ENABLE != 0 then
    if value &&& SYSTICK_ENABLE != 0 then
      if s.tick != 0 then mod { s with tick := s.tick + env.now }
      else s.reloadTimer env true
    else
      let tick := s.tick - env.now
      { s with timer := none, tick := if tick.slt 0 then 0 else tick }
  else if (oldval ^^^ value) &&& SYSTICK_CLKSOURCE != 0 then s.reloadTimer env true
  else s

/-- A write to the current value, in `nvic_writel`. -/
def writeCurrent : SystickTimer :=
  let s := s.reloadTimer env true
  { s with control := s.control &&& ~~~ SYSTICK_COUNTFLAG }

/-- `systick_reset`. -/
def reset : SystickTimer := ⟨0, 0, 0, none⟩

end SystickTimer

namespace Nvic

def ARMV7M_EXCP_NMI : ℕ := 2
def ARMV7M_EXCP_MEM : ℕ := 4
def ARMV7M_EXCP_BUS : ℕ := 5
def ARMV7M_EXCP_USAGE : ℕ := 6
def ARMV7M_EXCP_SVC : ℕ := 11
def ARMV7M_EXCP_DEBUG : ℕ := 12
def ARMV7M_EXCP_PENDSV : ℕ := 14
def ARMV7M_EXCP_SYSTICK : ℕ := 15

/-- `num_irq` of the NVIC, taken before `GIC_BASE_IRQ` is added to that of the GIC. -/
def numIrq : ℕ := 64

variable (env : NvicEnv) (s : Nvic)

/-- The number of the GIC for the vector `irq`. -/
def fromVector (irq : ℕ) : ℕ := if irq ≥ 16 then irq + 16 else irq

/-- The vector for the number `irq` of the GIC. -/
def toVector (irq : ℕ) : ℕ := if irq ≥ 32 then irq - 16 else irq

/-- `armv7m_nvic_set_pending`. -/
def setPending (irq : ℕ) : Nvic := { s with gic := s.gic.setPendingPrivate (fromVector irq) }

/-- `armv7m_nvic_acknowledge_irq`: the vector of the interrupt. -/
def acknowledgeIrq : Except Fault (ℕ × Nvic) :=
  let (irq, gic) := s.gic.acknowledgeIrq
  if irq = Gic.NONE then .error (.hwError "Interrupt but no vector\n")
  else .ok (toVector irq, { s with gic })

/-- `armv7m_nvic_complete_irq`. -/
def completeIrq (irq : ℕ) : Except Fault Nvic := do
  let gic ← s.gic.completeIrq (fromVector irq)
  .ok { s with gic }

/-- `systick_timer_tick`. -/
def systickTimerTick : Nvic :=
  let s' := if s.systick.has SYSTICK_TICKINT then s.setPending ARMV7M_EXCP_SYSTICK else s
  { s' with systick := s.systick.tickTimer env }

/-- Bit `n`, if `c`. -/
def flag (n : ℕ) (c : Bool) : BitVec 32 := if c then 1#32 <<< n else 0

/-- The Interrupt Control State, in `nvic_readl`. -/
def icsr : BitVec 32 :=
  let g := s.gic
  let active := if g.runningIrq = Gic.NONE then 0 else toVector g.runningIrq
  BitVec.ofNat 32 active
    ||| flag 11 (g.runningIrq = Gic.NONE || g.lastActive g.runningIrq = Gic.NONE)
    ||| (if g.currentPending = Gic.NONE then 0#32 else BitVec.ofNat 32 g.currentPending <<< 12)
    ||| flag 22 ((List.range numIrq).any fun irq => 32 ≤ irq && (g.irqState irq).pending)
    ||| flag 26 (g.irqState ARMV7M_EXCP_SYSTICK).pending
    ||| flag 28 (g.irqState ARMV7M_EXCP_PENDSV).pending
    ||| flag 31 (g.irqState ARMV7M_EXCP_NMI).pending

/-- The System Handler Control, in `nvic_readl`. -/
def shcsr : BitVec 32 :=
  let st := s.gic.irqState
  flag 0 (st ARMV7M_EXCP_MEM).active ||| flag 1 (st ARMV7M_EXCP_BUS).active
    ||| flag 3 (st ARMV7M_EXCP_USAGE).active ||| flag 7 (st ARMV7M_EXCP_SVC).active
    ||| flag 8 (st ARMV7M_EXCP_DEBUG).active ||| flag 10 (st ARMV7M_EXCP_PENDSV).active
    ||| flag 11 (st ARMV7M_EXCP_SYSTICK).active ||| flag 12 (st ARMV7M_EXCP_USAGE).pending
    ||| flag 13 (st ARMV7M_EXCP_MEM).pending ||| flag 14 (st ARMV7M_EXCP_BUS).pending
    ||| flag 15 (st ARMV7M_EXCP_SVC).pending ||| flag 16 (st ARMV7M_EXCP_MEM).enabled
    ||| flag 17 (st ARMV7M_EXCP_BUS).enabled ||| flag 18 (st ARMV7M_EXCP_USAGE).enabled

/-- `nvic_readl`.  Reading the control register of SysTick clears `COUNTFLAG`. -/
def readl (offset : ℕ) : Except Fault (BitVec 32 × Nvic) :=
  match offset with
  | 0x04 => .ok (1, s)
  | 0x10 =>
    .ok (s.systick.control, { s with systick :=
      { s.systick with control := s.systick.control &&& ~~~ SYSTICK_COUNTFLAG } })
  | 0x14 => .ok (s.systick.reload, s)
  | 0x18 => do
    let val ← s.systick.current env
    .ok (val, s)
  | 0x1c => .ok (10000, s)
  | 0xd00 => .ok (0x410fc231, s)
  | 0xd04 => .ok (s.icsr, s)
  | 0xd08 => .ok (s.vecbase, s)
  | 0xd0c => .ok (0xfa050000, s)
  | 0xd24 => .ok (s.shcsr, s)
  | 0xd40 => .ok (0x00000030, s)
  | 0xd44 => .ok (0x00000200, s)
  | 0xd48 => .ok (0x00100000, s)
  | 0xd50 => .ok (0x00000030, s)
  | 0xd60 => .ok (0x01141110, s)
  | 0xd64 => .ok (0x02111000, s)
  | 0xd68 => .ok (0x21112231, s)
  | 0xd6c => .ok (0x01111110, s)
  | 0xd70 => .ok (0x01310102, s)
  | _ => .ok (0, s)

/-- Whether a bit of `value` asks to set an exception pending, and otherwise another bit to
    clear it, in the write to the Interrupt Control State. -/
def writePending (value : BitVec 32) (irq set clear : ℕ) : Nvic :=
  if value.getLsbD set then s.setPending irq
  else if value.getLsbD clear then { s with gic := (s.gic.clearPending irq).update }
  else s

/-- A write to the System Handler Control, in `nvic_writel`: the three enables, without
    `gic_update`. -/
def writeShcsr (value : BitVec 32) : Nvic :=
  let enable (g : Gic) (irq n : ℕ) : Gic := g.modIrq irq fun i => { i with enabled := value.getLsbD n }
  { s with gic := enable (enable (enable s.gic ARMV7M_EXCP_MEM 16) ARMV7M_EXCP_BUS 17) ARMV7M_EXCP_USAGE 18 }

/-- `nvic_writel`.  The software trigger takes the number of the GIC. -/
def writel (offset : ℕ) (value : BitVec 32) : Nvic :=
  match offset with
  | 0x10 => { s with systick := s.systick.writeControl env value }
  | 0x14 => { s with systick := { s.systick with reload := value } }
  | 0x18 => { s with systick := s.systick.writeCurrent env }
  | 0xd04 =>
    let s := if value.getLsbD 31 then s.setPending ARMV7M_EXCP_NMI else s
    let s := s.writePending value ARMV7M_EXCP_PENDSV 28 27
    s.writePending value ARMV7M_EXCP_SYSTICK 26 25
  | 0xd08 => { s with vecbase := value &&& 0xffffff80 }
  | 0xd24 => s.writeShcsr value
  | 0xf00 =>
    if (value &&& 0x1ff).toNat < numIrq then
      { s with gic := s.gic.setPendingPrivate (value &&& 0x1ff).toNat }
    else s
  | _ => s

/-- `nvic_id`. -/
def nvicId (i : ℕ) : BitVec 32 := [0x00, 0xb0, 0x1b, 0x00, 0x0d, 0xe0, 0x05, 0xb1].getD i 0

/-- `nvic_sysreg_read`. -/
def sysregRead (offset : ℕ) (size : AccessSize) : Except Fault (BitVec 32 × Nvic) :=
  if 0xd18 ≤ offset ∧ offset ≤ 0xd23 then
    .ok ((List.range size.bytes).foldl (fun val i =>
      val ||| (s.gic.priority1 (offset - 0xd14 + i)).setWidth 32 <<< (i * 8)) 0, s)
  else if 0xfe0 ≤ offset ∧ offset ≤ 0xfff then
    .ok (if offset % 4 ≠ 0 then 0 else nvicId ((offset - 0xfe0) / 4), s)
  else if size = .word then s.readl env offset
  else .ok (0, s)

/-- `nvic_sysreg_write`. -/
def sysregWrite (offset : ℕ) (value : BitVec 64) (size : AccessSize) : Nvic :=
  if 0xd18 ≤ offset ∧ offset ≤ 0xd23 then
    { s with gic := Gic.update { s.gic with
      priority1 := (List.range size.bytes).foldl (fun p i =>
        Function.update p (offset - 0xd14 + i) ((value >>> (i * 8)).setWidth 8)) s.gic.priority1 } }
  else if size = .word then s.writel env offset (value.setWidth 32)
  else s

/-- A read from the page of the NVIC: the GIC lies over the system controller. -/
def read (offset : ℕ) (size : AccessSize) : Except Fault (BitVec 32 × Nvic) :=
  if 0x100 ≤ offset ∧ offset < 0xd00 then .ok (s.gic.distRead offset size, s)
  else s.sysregRead env offset size

def write (offset : ℕ) (value : BitVec 64) (size : AccessSize) : Nvic :=
  if 0x100 ≤ offset ∧ offset < 0xd00 then
    { s with gic := s.gic.distWrite offset (value.setWidth 32) size }
  else s.sysregWrite env offset value size

/-- As allocated. -/
def init : Nvic := ⟨.init, .reset, 0⟩

/-- `armv7m_nvic_reset`, with the reset of the CPU. -/
def reset : Nvic := ⟨s.gic.reset, .reset, 0⟩

/-- What happens at the NVIC: a line of a device changes, the CPU sets an exception pending,
    takes or completes one, the guest accesses a register, the timer of SysTick expires, the
    machine is reset. -/
inductive Op where
  | setIrq (line : Fin 64) (level : Bool)
  | setPending (irq : Fin 16)
  | acknowledge
  | complete (irq : ℕ)
  | read (offset : ℕ) (size : AccessSize)
  | write (offset : ℕ) (value : BitVec 64) (size : AccessSize)
  | tick
  | reset

/-- An operation, at the time and with the scales it finds.  A timer that is not pending does
    not expire. -/
def step (s : Nvic) (o : NvicEnv × Op) : Except Fault Nvic :=
  match o.2 with
  | .setIrq line level => .ok { s with gic := s.gic.setIrq line level }
  | .setPending irq => .ok (s.setPending irq)
  | .acknowledge => s.acknowledgeIrq.map Prod.snd
  | .complete irq => s.completeIrq irq
  | .read offset size => (s.read o.1 offset size).map Prod.snd
  | .write offset value size => .ok (s.write o.1 offset value size)
  | .tick => .ok (if s.systick.timer.isSome then s.systickTimerTick o.1 else s)
  | .reset => .ok s.reset

/-- The NVIC after the first reset. -/
def start : Nvic := init.reset

/-! Lines of the board (`stm32.h`). -/

def STM32_EXTI0_IRQ : Fin 64 := 6
def TIM2_IRQn : Fin 64 := 28
def STM32_UART1_IRQ : Fin 64 := 37

end Nvic

end Bluepill
