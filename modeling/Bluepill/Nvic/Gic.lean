/-
  The interrupt controller of the core (`hw/intc/arm_gic.c` and `arm_gic_common.c`, as the
  NVIC uses them).

  The NVIC is a GIC with one CPU, revision `REV_NVIC` and 96 interrupts, of which the first
  32 are internal.  With one CPU, the masks of CPUs in `gic_irq_state` say yes or no: every
  mask that is set contains the CPU, and every mask that is cleared contains all that was
  set.  `irq_target` is then the CPU, always.

  `parentIrq` is the request at the CPU, which the reset of the CPU withdraws.
-/
import Bluepill.Lib.Least
import Bluepill.Qemu

namespace Bluepill

/-- The sizes of an access. -/
inductive AccessSize where
  | byte
  | half
  | word
  deriving DecidableEq, Repr

def AccessSize.bytes : AccessSize → ℕ
  | byte => 1
  | half => 2
  | word => 4

/-- `gic_irq_state`. -/
structure GicIrqState where
  enabled : Bool
  pending : Bool
  active : Bool
  level : Bool
  model : Bool
  edgeTrigger : Bool
  deriving DecidableEq, Repr

/-- `GICState`; interrupts are numbered as the GIC does, and 1023 is none. -/
structure Gic where
  enabled : Bool
  cpuEnabled : Bool
  irqState : ℕ → GicIrqState
  priority1 : ℕ → BitVec 8
  priority2 : ℕ → BitVec 8
  lastActive : ℕ → ℕ
  priorityMask : ℕ
  runningIrq : ℕ
  runningPriority : ℕ
  currentPending : ℕ
  parentIrq : Bool

namespace Gic

def GIC_INTERNAL : ℕ := 32
def GIC_NR_SGIS : ℕ := 16
def GIC_BASE_IRQ : ℕ := 32
def GIC_MAXIRQ : ℕ := 1020

/-- `num_irq`: the default of 64 lines, and `GIC_BASE_IRQ`. -/
def numIrq : ℕ := 96

/-- No interrupt. -/
def NONE : ℕ := 1023

variable (s : Gic) (irq : ℕ)

/-- `GIC_GET_PRIORITY`. -/
def getPriority : ℕ :=
  if irq < GIC_INTERNAL then (s.priority1 irq).toNat else (s.priority2 (irq - GIC_INTERNAL)).toNat

/-- `GIC_TEST_ENABLED` and `gic_test_pending`. -/
def ready : Bool := (s.irqState irq).enabled && (s.irqState irq).pending

def modIrq (f : GicIrqState → GicIrqState) : Gic :=
  { s with irqState := Function.update s.irqState irq (f (s.irqState irq)) }

/-- `GIC_SET_PENDING`. -/
def setPending : Gic := s.modIrq irq fun i => { i with pending := true }

/-- `GIC_CLEAR_PENDING`. -/
def clearPending : Gic := s.modIrq irq fun i => { i with pending := false }

/-- `gic_update`. -/
def update : Gic :=
  if !s.enabled || !s.cpuEnabled then { s with currentPending := NONE, parentIrq := false }
  else
    let (bestPrio, bestIrq) := Least.scan s.ready s.getPriority (0x100, NONE) numIrq
    if bestPrio < s.priorityMask then
      { s with currentPending := bestIrq, parentIrq := bestPrio < s.runningPriority }
    else { s with currentPending := NONE, parentIrq := false }

/-- `gic_set_pending_private`. -/
def setPendingPrivate : Gic :=
  if (s.irqState irq).pending then s else (s.setPending irq).update

/-- `gic_set_irq_11mpcore`. -/
def setIrq11mpcore (level : Bool) : Gic :=
  if level then
    let s := s.modIrq irq fun i => { i with level := true }
    if (s.irqState irq).edgeTrigger || (s.irqState irq).enabled then s.setPending irq else s
  else s.modIrq irq fun i => { i with level := false }

/-- `gic_set_irq`, for one of the 64 external lines. -/
def setIrq (line : ℕ) (level : Bool) : Gic :=
  let irq := line + GIC_INTERNAL
  if level = (s.irqState irq).level then s else (s.setIrq11mpcore irq level).update

/-- `gic_set_running_irq`. -/
def setRunningIrq : Gic :=
  let s := { s with runningIrq := irq }
  update { s with runningPriority := if irq = NONE then 0x100 else s.getPriority irq }

/-- `gic_acknowledge_irq`: the interrupt acknowledged, or 1023. -/
def acknowledgeIrq : ℕ × Gic :=
  let irq := s.currentPending
  if irq = NONE ∨ s.getPriority irq ≥ s.runningPriority then (NONE, s)
  else
    let s := { s with lastActive := Function.update s.lastActive irq s.runningIrq }
    (irq, (s.clearPending irq).setRunningIrq irq)

/-- `gic_set_priority`. -/
def setPriority (val : BitVec 8) : Gic :=
  if irq < GIC_INTERNAL then { s with priority1 := Function.update s.priority1 irq val }
  else { s with priority2 := Function.update s.priority2 (irq - GIC_INTERNAL) val }

/-- The loop of `gic_complete_irq` that takes an interrupt out of the list of active ones.
    A loop through more than all interrupts does not end. -/
def unlinkFrom : ℕ → ℕ → Except Fault Gic
  | 0, _ => .error .outOfFuel
  | fuel + 1, tmp =>
    if s.lastActive tmp = NONE then .ok s
    else if s.lastActive tmp = irq then
      .ok { s with lastActive := Function.update s.lastActive tmp (s.lastActive irq) }
    else unlinkFrom fuel (s.lastActive tmp)

/-- A level-triggered interrupt whose line is still raised when it is completed. -/
def raised : Bool :=
  !(s.irqState irq).edgeTrigger && (s.irqState irq).enabled && (s.irqState irq).level

/-- Such an interrupt becomes pending. -/
def repend : Gic := if s.raised irq then s.setPending irq else s

/-- `gic_complete_irq`. -/
def completeIrq : Except Fault Gic :=
  if irq ≥ numIrq then .ok s
  else if s.runningIrq = NONE then .ok s
  else if irq ≠ s.runningIrq then do
    let s' ← (s.repend irq).unlinkFrom irq (GIC_MAXIRQ + 1) s.runningIrq
    .ok (if s.raised irq then s'.update else s')
  else .ok ((s.repend irq).setRunningIrq (s.lastActive s.runningIrq))

/-! ## The registers of the distributor -/

/-- The bits `i < n` with `c i`. -/
def bits (n : ℕ) (c : ℕ → Bool) : BitVec 32 :=
  (List.range n).foldl (fun res i => if c i then res ||| 1#32 <<< i else res) 0

/-- `gic_id`. -/
def gicId (i : ℕ) : BitVec 32 := [0x90, 0x13, 0x04, 0x00, 0x0d, 0xf0, 0x05, 0xb1].getD i 0

/-- The registers of eight interrupts each, from `base` on: the first of the interrupts. -/
def octet (base offset : ℕ) : ℕ := (offset - base) * 8 + GIC_BASE_IRQ

/-- `gic_dist_readb`; a bad offset reads `0`. -/
def distReadb (offset : ℕ) : BitVec 32 :=
  if offset < 0x100 then
    if offset = 0 then (if s.enabled then 1 else 0)
    else if offset = 4 then 2
    else 0
  else if offset < 0x200 then
    let irq := if offset < 0x180 then octet 0x100 offset else octet 0x180 offset
    if irq ≥ numIrq then 0 else bits 8 fun i => (s.irqState (irq + i)).enabled
  else if offset < 0x300 then
    let irq := if offset < 0x280 then octet 0x200 offset else octet 0x280 offset
    if irq ≥ numIrq then 0 else bits 8 fun i => (s.irqState (irq + i)).pending
  else if offset < 0x400 then
    let irq := octet 0x300 offset
    if irq ≥ numIrq then 0 else bits 8 fun i => (s.irqState (irq + i)).active
  else if offset < 0x800 then
    let irq := offset - 0x400 + GIC_BASE_IRQ
    if irq ≥ numIrq then 0 else BitVec.ofNat 32 (s.getPriority irq)
  else if offset < 0xc00 then 0
  else if offset < 0xf00 then
    let irq := (offset - 0xc00) * 2 + GIC_BASE_IRQ
    if irq ≥ numIrq then 0
    else bits 8 fun j => if j % 2 = 0 then (s.irqState (irq + j / 2)).model
      else (s.irqState (irq + j / 2)).edgeTrigger
  else if offset < 0xfe0 then 0
  else if offset % 4 ≠ 0 then 0
  else gicId ((offset - 0xfe0) / 4)

/-- The loop of a write to a register of eight interrupts: `f` for those whose bit is set. -/
def forBits (value : BitVec 32) (f : Gic → ℕ → Gic) : Gic :=
  (List.range 8).foldl (fun s i => if value.getLsbD i then f s (irq + i) else s) s

/-- Set Enable: a raised level-triggered interrupt becomes pending. -/
def setEnabled : Gic :=
  let s := s.modIrq irq fun i => { i with enabled := true }
  if (s.irqState irq).level && !(s.irqState irq).edgeTrigger then s.setPending irq else s

/-- Clear Enable. -/
def clearEnabled : Gic := s.modIrq irq fun i => { i with enabled := false }

/-- `gic_dist_writeb`.  Since `GIC_BASE_IRQ` is 32, the interrupts named are external. -/
def distWriteb (offset : ℕ) (value : BitVec 32) : Gic :=
  if offset < 0x100 then
    if offset = 0 then update { s with enabled := value.getLsbD 0 }
    else if offset < 4 ∨ offset ≥ 0x80 then s.update
    else s
  else if offset < 0x180 then
    let irq := octet 0x100 offset
    if irq ≥ numIrq then s else (s.forBits irq value setEnabled).update
  else if offset < 0x200 then
    let irq := octet 0x180 offset
    if irq ≥ numIrq then s else (s.forBits irq value clearEnabled).update
  else if offset < 0x280 then
    let irq := octet 0x200 offset
    if irq ≥ numIrq then s else (s.forBits irq value setPending).update
  else if offset < 0x300 then
    let irq := octet 0x280 offset
    if irq ≥ numIrq then s else (s.forBits irq value clearPending).update
  else if offset < 0x400 then s
  else if offset < 0x800 then
    let irq := offset - 0x400 + GIC_BASE_IRQ
    if irq ≥ numIrq then s else (s.setPriority irq (value.setWidth 8)).update
  else if offset < 0xc00 then s.update
  else if offset < 0xf00 then
    -- the write covers the interrupts four by four, the read two by two
    let irq := (offset - 0xc00) * 4 + GIC_BASE_IRQ
    if irq ≥ numIrq then s
    else update ((List.range 4).foldl (fun s i => s.modIrq (irq + i) fun st =>
      { st with model := value.getLsbD (i * 2), edgeTrigger := value.getLsbD (i * 2 + 1) }) s)
  else s

/-- `gic_dist_readw`. -/
def distReadw (offset : ℕ) : BitVec 32 := s.distReadb offset ||| s.distReadb (offset + 1) <<< 8

/-- `gic_dist_readl`. -/
def distReadl (offset : ℕ) : BitVec 32 := s.distReadw offset ||| s.distReadw (offset + 2) <<< 16

/-- `gic_dist_writew`. -/
def distWritew (offset : ℕ) (value : BitVec 32) : Gic :=
  (s.distWriteb offset (value &&& 0xff)).distWriteb (offset + 1) (value >>> 8)

/-- `gic_dist_writel`; the register at `0xf00` lies outside of what the NVIC maps. -/
def distWritel (offset : ℕ) (value : BitVec 32) : Gic :=
  (s.distWritew offset (value &&& 0xffff)).distWritew (offset + 2) (value >>> 16)

def distRead (offset : ℕ) : AccessSize → BitVec 32
  | .byte => s.distReadb offset
  | .half => s.distReadw offset
  | .word => s.distReadl offset

def distWrite (offset : ℕ) (value : BitVec 32) : AccessSize → Gic
  | .byte => s.distWriteb offset value
  | .half => s.distWritew offset value
  | .word => s.distWritel offset value

/-! ## Start -/

/-- As allocated. -/
def init : Gic where
  enabled := false
  cpuEnabled := false
  irqState _ := ⟨false, false, false, false, false, false⟩
  priority1 _ := 0
  priority2 _ := 0
  lastActive _ := 0
  priorityMask := 0
  runningIrq := 0
  runningPriority := 0
  currentPending := 0
  parentIrq := false

/-- `arm_gic_common_reset` and the part of `armv7m_nvic_reset` on the GIC.  Priorities stay as
    they are. -/
def reset : Gic :=
  { s with
    irqState := fun irq =>
      ⟨decide (irq < GIC_NR_SGIS), false, false, false, false, decide (irq < GIC_NR_SGIS)⟩
    priorityMask := 0x100
    currentPending := NONE
    runningIrq := NONE
    runningPriority := 0x100
    cpuEnabled := true
    enabled := true
    parentIrq := false }

end Gic

end Bluepill
