/-
  The real time clock (`hw/timer/stm32_rtc.c`).

  The second is the countdown of a `Ptimer`, started when the clock of the RTC gets a
  frequency; each tick counts `CNT` up and starts the next one.  An expiry of the
  `Ptimer` and the tick it schedules are two operations, as for the timers.

  The levels driven on the interrupt line are recorded.  `curr_irq_level`, which no
  function reads, is left out.
-/
import Bluepill.Timer

namespace Bluepill

/-- `struct Stm32Rtc`.  The registers of 32 bits are two halves in the source, the
    lower one first. -/
structure Stm32Rtc where
  periph : Periph
  CRL : BitVec 16
  CRH : BitVec 16
  PRLL : BitVec 16
  PRLH : BitVec 16
  CNTL : BitVec 16
  CNTH : BitVec 16
  ALRL : BitVec 16
  ALRH : BitVec 16
  ptimer : Ptimer
  freq : BitVec 32
  prescaler : BitVec 32
  irq : List (BitVec 32)

namespace Stm32Rtc

variable (env : TimerEnv)

/-- Two halves of a register. -/
def word (high low : BitVec 16) : BitVec 32 := high.setWidth 32 <<< 16 ||| low.setWidth 32

/-- A second: the countdown from the prescaler starts. -/
def startSecond (s : Stm32Rtc) : Stm32Rtc :=
  { s with ptimer :=
      (s.ptimer.setCount env.now ((s.prescaler + 1).setWidth 64)).run env.now true }

/-- `stm32_rtc_clk_irq_handler`. -/
def clkIrqHandler (s : Stm32Rtc) (_n : ℕ) (_level : Bool) : Except Fault Stm32Rtc := do
  let freq ← env.rcc.getPeriphFreq s.periph
  let s := { s with freq }
  if freq ≠ 0 then do
    let ptimer ← s.ptimer.setFreq env.now freq
    .ok (startSecond env { s with ptimer })
  else .ok s

/-- `stm32_rtc_update_irq`.  The flags are meant to be cleared, but the mask is made of
    the numbers of the bits: `~(0 | 1 | 2)`. -/
def updateIrq (s : Stm32Rtc) : Stm32Rtc :=
  let newIrqLevel := s.CRH &&& s.CRL ||| (s.CRH >>> 1 &&& s.CRL >>> 1) ||| (s.CRH >>> 2 &&& s.CRL >>> 2)
  if newIrqLevel &&& 0x07 ≠ 0 then
    { s with CRL := s.CRL &&& ~~~ 3, irq := s.irq ++ [newIrqLevel.setWidth 32, 0] }
  else s

/-- `stm32_rtc_check_alarm`. -/
def checkAlarm (s : Stm32Rtc) : Bool := word s.CNTH s.CNTL = word s.ALRH s.ALRL

/-- `stm32_rtc_tick`. -/
def tick (s : Stm32Rtc) : Stm32Rtc :=
  let newCNT := word s.CNTH s.CNTL + 1
  let s := { s with CNTL := newCNT.setWidth 16, CNTH := (newCNT >>> 16).setWidth 16 }
  let s := if s.CRH ≠ 0 then { s with CRL := s.CRL ||| 1 } else s
  let s := if s.CRH &&& 2 ≠ 0 then
    { s with CRL := s.CRL ||| (BitVec.ofBool s.checkAlarm).setWidth 16 <<< 1 } else s
  let s := if s.CRL &&& 8 = 0 then { s with CRL := s.CRL ||| 8 } else s
  startSecond env s.updateIrq

/-- `stm32_rtc_reset`. -/
def reset (s : Stm32Rtc) : Stm32Rtc :=
  { s with
    CRL := 0x0020, CRH := 0x0000, PRLL := 0x8000, CNTL := 0x0000, ALRL := 0xFFFF
    PRLH := 0x0000, CNTH := 0x0000, ALRH := 0xFFFF, prescaler := word (0x0000 &&& 0x000f) 0x8000 }

/-- `stm32_rtc_init`. -/
def init (periph : Periph) : Stm32Rtc :=
  reset ⟨periph, 0, 0, 0, 0, 0, 0, 0, 0, .init, 0, 0, []⟩

/-- `stm32_rtc_read`. -/
def read (s : Stm32Rtc) (offset : ℕ) : Except Fault (BitVec 64) :=
  match offset with
  | 0x08 => .error (.hwError "attempted to read                   PRLH registre")
  | 0x0c => .error (.hwError "attempted to read                   PRLL registre")
  | 0x00 => .ok (s.CRH.setWidth 64)
  | 0x04 => .ok (s.CRL.setWidth 64)
  | 0x10 => .ok (s.PRLH.setWidth 64)
  | 0x14 => .ok (s.PRLL.setWidth 64)
  | 0x18 => .ok (s.CNTH.setWidth 64)
  | 0x1c => .ok (s.CNTL.setWidth 64)
  | 0x20 => .ok (s.ALRH.setWidth 64)
  | 0x24 => .ok (s.ALRL.setWidth 64)
  | _ => .ok 0

/-- The prescaler follows the register it is for. -/
def updatePrescaler (s : Stm32Rtc) : Stm32Rtc :=
  { s with prescaler := word (s.PRLH &&& 0x000f) s.PRLL }

/-- The write itself; `none` if there is no such register. -/
def writeReg (s : Stm32Rtc) (offset : ℕ) (value : BitVec 64) : Except Fault (Option Stm32Rtc) :=
  match offset with
  | 0x00 => .ok (some { s with CRH := value.setWidth 16 })
  | 0x04 => .ok (some { s with
      CRL := s.CRL &&& (value &&& 0xf).setWidth 16 ||| (value &&& 0x10).setWidth 16 })
  | 0x08 => .ok (some (updatePrescaler { s with PRLH := (value &&& 0x000f).setWidth 16 }))
  | 0x0c => .ok (some (updatePrescaler { s with PRLL := value.setWidth 16 }))
  | 0x10 => .error (.hwError "attempted to write                      in DIVH registre")
  | 0x14 => .error (.hwError "attempted to write                      in DIVL registre")
  | 0x18 => .ok (some { s with CNTH := value.setWidth 16 })
  | 0x1c => .ok (some { s with CNTL := value.setWidth 16 })
  | 0x20 => .ok (some { s with ALRH := value.setWidth 16 })
  | 0x24 => .ok (some { s with ALRL := value.setWidth 16 })
  | _ => .ok none

/-- `stm32_rtc_write`.  `RTOFF` is clear during the write, and stays so if there is no
    such register. -/
def write (s : Stm32Rtc) (offset : ℕ) (value : BitVec 64) : Except Fault Stm32Rtc :=
  if offset ≠ 0x00 ∧ offset ≠ 0x04 ∧ s.CRL &&& 0x10 = 0 then
    .error (.hwError
      "you are must enter to configuration                     mode for write in any registre")
  else do
    let s := { s with CRL := s.CRL &&& ~~~ 0x20 }
    match ← s.writeReg offset value with
    | some s => .ok { s with CRL := s.CRL ||| 0x20 }
    | none => .ok s

/-! ## The device -/

/-- What can happen to the RTC. -/
inductive Op where
  | read (offset : ℕ)
  | write (offset : ℕ) (value : BitVec 64)
  | clkIrq (level : Bool)
  | expire
  | tick
  | reset

/-- An operation, with the other devices as they are at that moment. -/
def step (s : Stm32Rtc) (o : TimerEnv × Op) : Except Fault Stm32Rtc :=
  match o.2 with
  | .read offset => do
    let _ ← s.read offset
    .ok s
  | .write offset value => s.write offset value
  | .clkIrq level => s.clkIrqHandler o.1 0 level
  | .expire =>
    .ok (if s.ptimer.timer.isSome then { s with ptimer := { s.ptimer with timer := none }.tick } else s)
  | .tick =>
    .ok (if s.ptimer.bh then tick o.1 { s with ptimer := { s.ptimer with bh := false } } else s)
  | .reset => .ok s.reset

end Stm32Rtc

end Bluepill
