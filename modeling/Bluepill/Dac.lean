/-
  The digital to analog converter (`hw/arm/stm32_dac.c`).

  The two channels are written out twice in the source, with the same text up to
  the positions of their fields in `DAC_CR` and `DAC_SWTRIGR`, their timers, the
  pin and the file.  Here a `Channel` stands for that difference: the functions
  of the source are one definition at the two channels.

  A timer is pending with the time it expires at, or not.  The file of a channel
  is the list of the numbers written since it was last truncated.  The offset of
  an access lies in the region of `0x3ff` bytes, where `& 0xffffffff` does
  nothing; the size of the access plays no part.
-/
import Bluepill.Gpio
import Bluepill.Rcc

namespace Bluepill

/-- The devices the converter looks at, and the time. -/
structure DacEnv where
  rcc : Stm32Rcc
  gpio : ℕ → Stm32Gpio
  now : BitVec 64

/-- The timers of `struct Stm32Dac`. -/
inductive DacTimer where
  | DOR1 | DOR2 | TRI_CNT1 | TRI_CNT2 | CONV1 | CONV2 | LFSR
  deriving DecidableEq

/-- The fields of `struct Stm32Dac` that have the number of a channel in their name, and
    the file of the channel. -/
structure DacChannel where
  DOR : BitVec 32
  DACC_DHR : BitVec 16
  TRI_CNT : BitVec 16
  incCnt : Bool
  outPut : List (BitVec 32)

/-- The number of a channel. -/
inductive Channel where
  | one | two
  deriving DecidableEq

/-- `struct Stm32Dac`. -/
structure Stm32Dac where
  periph : Periph
  nsPerCycle : BitVec 64
  CR : BitVec 32
  SWTRIGR : BitVec 32
  DHR12R1 : BitVec 32
  DHR12L1 : BitVec 32
  DHR8R1 : BitVec 32
  DHR12R2 : BitVec 32
  DHR12L2 : BitVec 32
  DHR8R2 : BitVec 32
  DHR12RD : BitVec 32
  DHR12LD : BitVec 32
  DHR8RD : BitVec 32
  LFSR_VALUE : BitVec 16
  Vref : BitVec 32
  chan : Channel → DacChannel
  timer : DacTimer → Option (BitVec 64)

/-! ## What differs between the channels -/

namespace Channel

/-- `DAC_CR_TEN1_BIT`, `DAC_CR_TEN2_BIT`. -/
def TEN_BIT : Channel → ℕ
  | one => 2
  | two => 18

/-- `DAC_CR_TSEL1_START`, `DAC_CR_TSEL2_START`. -/
def TSEL_START : Channel → ℕ
  | one => 3
  | two => 19

/-- `DAC_CR_WAVE1_START`, `DAC_CR_WAVE2_START`. -/
def WAVE_START : Channel → ℕ
  | one => 6
  | two => 22

/-- `DAC_CR_MAMP1_START`, `DAC_CR_MAMP2_START`. -/
def MAMP_START : Channel → ℕ
  | one => 8
  | two => 24

/-- The bit of the channel in `DAC_SWTRIGR`. -/
def SWTRIG_BIT : Channel → ℕ
  | one => 0
  | two => 1

/-- `DAC_SWTRIGR1_MASK`, `DAC_SWTRIGR2_MASK`. -/
def SWTRIGR_MASK : Channel → BitVec 32
  | one => 0x00000001
  | two => 0x00000002

def dorTimer : Channel → DacTimer
  | one => .DOR1
  | two => .DOR2

def triCntTimer : Channel → DacTimer
  | one => .TRI_CNT1
  | two => .TRI_CNT2

def convTimer : Channel → DacTimer
  | one => .CONV1
  | two => .CONV2

/-- The pin of port A at the output of the channel. -/
def pin : Channel → ℕ
  | one => 4
  | two => 5

end Channel

namespace Stm32Dac

variable (env : DacEnv)

def modChan (s : Stm32Dac) (c : Channel) (f : DacChannel → DacChannel) : Stm32Dac :=
  { s with chan := Function.update s.chan c (f (s.chan c)) }

/-- `timer_mod` on a timer of the device. -/
def arm (s : Stm32Dac) (x : DacTimer) (expireTime : BitVec 64) : Stm32Dac :=
  { s with timer := Function.update s.timer x (some (timerMod expireTime)) }

/-- The amplitude of a channel, `11` at most. -/
def MAMP (CR : BitVec 32) (c : Channel) : BitVec 32 :=
  let MAMP := extract32 CR c.MAMP_START 4
  if MAMP > 11 then 11 else MAMP

/-! ## The clock -/

/-- `stm32_dac_clk_irq_handler`. -/
def clkIrqHandler (s : Stm32Dac) : Except Fault Stm32Dac := do
  let clkFreq ← env.rcc.getPeriphFreq s.periph
  if clkFreq = 0 then .error .divByZero
  else .ok { s with nsPerCycle := BitVec.ofNat 64 (1000000000 / clkFreq.toNat) }

/-! ## The wave generators -/

/-- `stm32_dac_LFSR_update`. -/
def lfsrUpdate (s : Stm32Dac) : Stm32Dac :=
  let bit := s.LFSR_VALUE.getLsbD
  let nor := (List.range' 1 11).foldl (fun nor i => !(nor || bit i)) (bit 0)
  let xor := bit 0 ^^ bit 1 ^^ bit 4 ^^ bit 6 ^^ nor
  { s with LFSR_VALUE := s.LFSR_VALUE >>> 1 ||| (BitVec.ofBool xor).setWidth 16 <<< 11 }

/-- One count up or down between `0` and `maxAmplitude`. -/
def count (maxAmplitude : BitVec 16) (ch : DacChannel) : DacChannel :=
  let TRI_CNT := if ch.incCnt then ch.TRI_CNT + 1 else ch.TRI_CNT - 1
  let incCnt := if TRI_CNT ≥ maxAmplitude then false else ch.incCnt
  let incCnt := if TRI_CNT ≤ 0 then true else incCnt
  { ch with TRI_CNT, incCnt }

/-- `stm32_dac_triangular_cnt1_update` and `stm32_dac_triangular_cnt2_update`. -/
def triangularCntUpdate (s : Stm32Dac) (c : Channel) : Stm32Dac :=
  let maxAmplitude : BitVec 16 := 1#16 <<< ((MAMP s.CR c).toNat + 1) - 1
  s.modChan c (count maxAmplitude)

def triangularCnt1Update (s : Stm32Dac) : Stm32Dac := s.triangularCntUpdate .one

def triangularCnt2Update (s : Stm32Dac) : Stm32Dac := s.triangularCntUpdate .two

/-! ## Loading the output -/

/-- Triangular generation in `stm32_dac_load_DOR1_registre` and
    `stm32_dac_load_DOR2_registre`. -/
def addTriangle (s : Stm32Dac) (c : Channel) : Stm32Dac :=
  (s.modChan c fun ch => { ch with DOR := ch.DOR + ch.TRI_CNT.setWidth 32 }).arm c.triCntTimer
    (env.now + 3 * s.nsPerCycle)

/-- Noise generation.  The channels share `LFSR_VALUE` and its timer. -/
def addNoise (s : Stm32Dac) (c : Channel) : Stm32Dac :=
  let MASK_LFSR : BitVec 32 := 1#32 <<< ((MAMP s.CR c).toNat + 1) - 1
  let noise := s.LFSR_VALUE.setWidth 32 &&& MASK_LFSR
  (s.modChan c fun ch => { ch with DOR := ch.DOR + noise }).arm .LFSR (env.now + 3 * s.nsPerCycle)

def addWave (s : Stm32Dac) (c : Channel) : Stm32Dac :=
  let WAVE := extract32 s.CR c.WAVE_START 2
  let s := if WAVE > 1 then s.addTriangle env c else s
  if WAVE = 1 then s.addNoise env c else s

/-- The part of a load that waits for a trigger; the trigger is cleared. -/
def trigger (s : Stm32Dac) (c : Channel) : Stm32Dac :=
  if extract32 s.CR c.TEN_BIT 1 ≠ 0 ∧ extract32 s.SWTRIGR c.SWTRIG_BIT 1 ≠ 0 then
    let s := s.addWave env c
    { s with SWTRIGR := s.SWTRIGR &&& ~~~ c.SWTRIGR_MASK }
  else s

/-- `stm32_dac_load_DOR1_registre` and `stm32_dac_load_DOR2_registre`. -/
def loadDORRegistre (s : Stm32Dac) (c : Channel) : Stm32Dac :=
  let s := s.modChan c fun ch => { ch with DOR := ch.DACC_DHR.setWidth 32 }
  let s := s.trigger env c
  s.arm c.convTimer (env.now + 3 * s.nsPerCycle)

def loadDOR1Registre (s : Stm32Dac) : Stm32Dac := s.loadDORRegistre env .one

def loadDOR2Registre (s : Stm32Dac) : Stm32Dac := s.loadDORRegistre env .two

/-- `stm32_dac_write_DACC1_DHR` and `stm32_dac_write_DACC2_DHR`. -/
def writeDACCDHR (s : Stm32Dac) (c : Channel) (value : BitVec 32) : Stm32Dac :=
  let s := s.modChan c fun ch => { ch with DACC_DHR := value.setWidth 16 }
  if extract32 s.CR c.TEN_BIT 1 = 0 then s.arm c.dorTimer (env.now + s.nsPerCycle) else s

def writeDACC1DHR (s : Stm32Dac) (value : BitVec 32) : Stm32Dac := s.writeDACCDHR env .one value

def writeDACC2DHR (s : Stm32Dac) (value : BitVec 32) : Stm32Dac := s.writeDACCDHR env .two value

/-- `stm32_dac_write_DAC_SWTRIGR`. -/
def writeSWTRIGR (s : Stm32Dac) (value : BitVec 32) : Stm32Dac :=
  let s := { s with SWTRIGR := value &&& 3 }
  let s :=
    if value &&& Channel.one.SWTRIGR_MASK ≠ 0 then s.arm .DOR1 (env.now + s.nsPerCycle) else s
  if value &&& Channel.two.SWTRIGR_MASK ≠ 0 then s.arm .DOR2 (env.now + s.nsPerCycle) else s

/-! ## The output -/

/-- `stm32_dac_check_pin`. -/
def checkPin (pin : ℕ) : Except Fault Unit :=
  let gpioDev := env.gpio 0
  if gpioDev.getModeBits pin ≠ 0 then
    .error (.hwError ("GPIOA pin " ++ toString pin ++ " needs to be configured as input"))
  else if gpioDev.getConfigBits pin ≠ 0 then
    .error (.hwError ("GPIOA pin " ++ toString pin ++ " needs to be configured as analog input"))
  else .ok ()

/-- The number printed for the output in mV; the product and the quotient are unsigned. -/
def output (Vref : BitVec 32) (ch : DacChannel) : DacChannel :=
  { ch with outPut := ch.outPut ++ [Vref * (ch.DOR &&& 0xfff) / 4095] }

/-- `stm32_dac_conv_DACC1` and `stm32_dac_conv_DACC2`. -/
def convDACC (s : Stm32Dac) (c : Channel) : Except Fault Stm32Dac := do
  checkPin env c.pin
  .ok (s.modChan c (output s.Vref))

def convDACC1 (s : Stm32Dac) : Except Fault Stm32Dac := s.convDACC env .one

def convDACC2 (s : Stm32Dac) : Except Fault Stm32Dac := s.convDACC env .two

/-! ## Registers -/

/-- `stm32_dac_reset`.  The registers, the counters and the timers stay as they are. -/
def reset (s : Stm32Dac) : Stm32Dac :=
  { s with
    LFSR_VALUE := 0xAAA
    Vref := 2400
    chan := fun c => { s.chan c with incCnt := true, outPut := [] } }

/-- `stm32_dac_read`. -/
def read (s : Stm32Dac) (offset : ℕ) : BitVec 32 :=
  match offset with
  | 0x00 => s.CR
  | 0x04 => s.SWTRIGR
  | 0x08 => s.DHR12R1
  | 0x0c => s.DHR12L1
  | 0x10 => s.DHR8R1
  | 0x14 => s.DHR12R2
  | 0x18 => s.DHR12L2
  | 0x1c => s.DHR8R2
  | 0x20 => s.DHR12RD
  | 0x24 => s.DHR12LD
  | 0x28 => s.DHR8RD
  | 0x2c => (s.chan .one).DOR
  | 0x30 => (s.chan .two).DOR
  | _ => 0

/-- The test of `TSEL1` and `TSEL2` in `stm32_dac_write`, negated. -/
def selectsSoftware (CR : BitVec 32) (c : Channel) : Bool :=
  CR >>> c.TSEL_START &&& 0x7 == 0 || CR >>> c.TSEL_START &&& 0x7 == 0x7

/-- The write to `DAC_CR` in `stm32_dac_write`. -/
def writeCR (s : Stm32Dac) (value : BitVec 32) : Except Fault Stm32Dac :=
  if !selectsSoftware value .one then .error (.hwError "software triger is only supported \n")
  else if !selectsSoftware value .two then .error (.hwError "software triger is only supported \n")
  else .ok { s with CR := value }

/-- `stm32_dac_write`. -/
def write (s : Stm32Dac) (offset : ℕ) (value : BitVec 64) : Except Fault Stm32Dac :=
  let v : BitVec 32 := value.setWidth 32
  match offset with
  | 0x00 => s.writeCR v
  | 0x04 => .ok (s.writeSWTRIGR env v)
  | 0x08 => .ok (writeDACC1DHR env { s with DHR12R1 := v } (v &&& 0xfff))
  | 0x0c => .ok (writeDACC1DHR env { s with DHR12L1 := v } (v >>> 4 &&& 0xfff))
  | 0x10 => .ok (writeDACC1DHR env { s with DHR8R1 := v } (v &&& 0xff))
  | 0x14 => .ok (writeDACC2DHR env { s with DHR12R2 := v } (v &&& 0xfff))
  | 0x18 => .ok (writeDACC2DHR env { s with DHR12L2 := v } (v >>> 4 &&& 0xfff))
  | 0x1c => .ok (writeDACC2DHR env { s with DHR8R2 := v } (v &&& 0xff))
  | 0x20 =>
    .ok ((writeDACC1DHR env { s with DHR12RD := v } (v &&& 0xfff)).writeDACC2DHR env
      (v >>> 16 &&& 0xfff))
  | 0x24 =>
    .ok ((writeDACC1DHR env { s with DHR12LD := v } (v >>> 4 &&& 0xfff)).writeDACC2DHR env
      (v >>> 20 &&& 0xfff))
  | 0x28 =>
    .ok ((writeDACC1DHR env { s with DHR8RD := v } (v &&& 0xff)).writeDACC2DHR env
      (v >>> 8 &&& 0xff))
  | 0x2c => .error (.hwError "Software attempted to read DOR1 Registre \n")
  | 0x30 => .error (.hwError "Software attempted to read DOR2 Registre \n")
  | _ => .ok s

/-- The device before its initialization. -/
def powerOn (periph : Periph) : Stm32Dac :=
  ⟨periph, 0, 0, 0, 0, 0, 0, 0, 0, 0, 0, 0, 0, 0, 0, fun _ => ⟨0, 0, 0, false, []⟩, fun _ => none⟩

/-- `stm32_dac_init`.  The registration of the clock handler is part of the board. -/
def init (periph : Periph) : Stm32Dac := reset (powerOn periph)

/-! ## The device -/

/-- What can happen to the converter. -/
inductive Op where
  | read (offset size : ℕ)
  | write (offset : ℕ) (value : BitVec 64) (size : ℕ)
  | clkIrq
  | expire (x : DacTimer)
  | reset
  deriving DecidableEq

/-- The callbacks of the timers, as `stm32_dac_init` sets them. -/
def callback (s : Stm32Dac) (x : DacTimer) : Except Fault Stm32Dac :=
  match x with
  | .DOR1 => .ok (s.loadDOR1Registre env)
  | .DOR2 => .ok (s.loadDOR2Registre env)
  | .TRI_CNT1 => .ok s.triangularCnt1Update
  | .TRI_CNT2 => .ok s.triangularCnt2Update
  | .CONV1 => s.convDACC1 env
  | .CONV2 => s.convDACC2 env
  | .LFSR => .ok s.lfsrUpdate

/-- A timer that expires is no longer pending when its callback runs; one that is not
    pending does not expire. -/
def expire (s : Stm32Dac) (x : DacTimer) : Except Fault Stm32Dac :=
  if (s.timer x).isSome then callback env { s with timer := Function.update s.timer x none } x
  else .ok s

/-- An operation, with the other devices and the time as they are at that moment. -/
def step (s : Stm32Dac) (o : DacEnv × Op) : Except Fault Stm32Dac :=
  match o.2 with
  | .read _ _ => .ok s
  | .write offset value _ => s.write o.1 offset value
  | .clkIrq => s.clkIrqHandler o.1
  | .expire x => s.expire o.1 x
  | .reset => .ok s.reset

end Stm32Dac

end Bluepill
