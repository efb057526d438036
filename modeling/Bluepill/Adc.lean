/-
  The analog to digital converter (`hw/arm/stm32_adc.c`).

  A conversion gives its result at once; the timer only delays the flag `EOC`.  What is
  converted comes from outside: the values of `rand` for the two internal channels, a
  sine of the time for the others (`AdcEnv`).  The times per sample are computed in the
  source with `double`s; all operands are whole numbers below 2^53, where the truncated
  quotient is that of whole numbers.

  The level last driven on the interrupt line is part of the state.  Of the fields of the
  source those that no function uses are left out (`sr_read_since_ore_set`,
  `converting`, `chr`, `afio_board_map`).
-/
import Bluepill.Gpio
import Bluepill.Rcc

namespace Bluepill

/-- The devices the converter looks at, the time, the values of `rand` call by call, and
    the sine of the time as an `int`. -/
structure AdcEnv where
  rcc : Stm32Rcc
  gpio : ℕ → Stm32Gpio
  now : BitVec 64
  rand : ℕ → ℕ
  wave : BitVec 32

/-- `struct Stm32Adc`. -/
structure Stm32Adc where
  periph : Periph
  nsPerSample : ℕ → BitVec 64
  SR : BitVec 32
  CR1 : BitVec 32
  CR2 : BitVec 32
  SMPR1 : BitVec 32
  SMPR2 : BitVec 32
  JOFR1 : BitVec 32
  JOFR2 : BitVec 32
  JOFR3 : BitVec 32
  JOFR4 : BitVec 32
  HTR : BitVec 32
  LTR : BitVec 32
  SQR1 : BitVec 32
  SQR2 : BitVec 32
  SQR3 : BitVec 32
  JSQR : BitVec 32
  JDR1 : BitVec 32
  JDR2 : BitVec 32
  JDR3 : BitVec 32
  JDR4 : BitVec 32
  DR : BitVec 32
  convTimer : Option (BitVec 64)
  irq : BitVec 32
  currIrqLevel : BitVec 32
  Vref : ℤ
  Vdda : ℤ

namespace Stm32Adc

variable (env : AdcEnv)

/-! ## The clock -/

/-- The sample times, in clock periods times `10 ^ 9`. -/
def sampleTimes : List ℕ :=
  [1500000000, 7500000000, 13500000000, 28500000000, 41500000000, 55500000000, 71500000000, 239500000000]

/-- `stm32_ADC_update_ns_per_sample`. -/
def updateNsPerSample (s : Stm32Adc) : Except Fault Stm32Adc := do
  let clkFreq ← env.rcc.getPeriphFreq s.periph
  if clkFreq ≠ 0 then
    .ok { s with nsPerSample := fun i => BitVec.ofNat 64 (sampleTimes.getD i 0 / clkFreq.toNat) }
  else .ok { s with nsPerSample := fun _ => 0 }

/-- `stm32_adc_clk_irq_handler`. -/
def clkIrqHandler (s : Stm32Adc) (n : ℕ) (level : Bool) : Except Fault Stm32Adc := do
  assert (n = 0)
  if level then s.updateNsPerSample env else .ok s

/-! ## Conversions -/

/-- `new_irq_level` of `stm32_ADC_update_irq`. -/
def newIrqLevel (s : Stm32Adc) : BitVec 32 :=
  s.CR1 >>> 5 &&& s.SR >>> 1 ||| (s.CR1 >>> 7 &&& s.SR >>> 2) ||| (s.CR1 >>> 6 &&& s.SR >>> 0)

/-- `stm32_ADC_update_irq`.  Only the lowest bit is compared, but the whole level is
    driven and kept. -/
def updateIrq (s : Stm32Adc) : Stm32Adc :=
  if (s.newIrqLevel &&& 1) ^^^ s.currIrqLevel ≠ 0 then
    { s with irq := s.newIrqLevel, currIrqLevel := s.newIrqLevel }
  else s

/-- `stm32_adc_conv_complete`. -/
def convComplete (s : Stm32Adc) : Stm32Adc := updateIrq { s with SR := s.SR ||| 0x02 }

/-- `stm32_ADC_get_channel_number`. -/
def getChannelNumber (s : Stm32Adc) (convertNumber : ℕ) : Except Fault ℕ := do
  assert (1 ≤ convertNumber ∧ convertNumber ≤ 16)
  if convertNumber ≤ 6 then .ok (s.SQR3 >>> (5 * (convertNumber - 1)) &&& 0x1f).toNat
  else if convertNumber ≤ 12 then .ok (s.SQR2 >>> (5 * (convertNumber - 7)) &&& 0x1f).toNat
  else .ok (s.SQR1 >>> (5 * (convertNumber - 13)) &&& 0x1f).toNat

/-- `stm32_ADC_get_nbr_cycle_per_sample`. -/
def getNbrCyclePerSample (s : Stm32Adc) (channel : ℕ) : Except Fault (BitVec 64) := do
  assert (channel ≤ 17)
  let indexCycle :=
    if 10 ≤ channel then s.SMPR1 >>> (3 * (channel - 10)) &&& 0x7 else s.SMPR2 >>> (3 * channel) &&& 0x7
  .ok (s.nsPerSample indexCycle.toNat)

/-- A reference voltage between 2400 mV and `Vdda`. -/
def randomVref (Vdda : ℤ) (rand : ℕ) : Except Fault ℤ :=
  if Vdda - 2400 + 1 = 0 then .error .divByZero
  else .ok ((rand : ℤ).tmod (Vdda - 2400 + 1) + 2400)

/-- The result of a conversion. -/
def convert (s : Stm32Adc) (channel : ℕ) : Except Fault Stm32Adc :=
  if channel = 16 then do
    let Vdda : ℤ := (env.rand 0 : ℤ) % (1200 + 1) + 2400
    let Vref ← randomVref Vdda (env.rand 1)
    .ok { s with Vdda, Vref, DR := BitVec.ofInt 32 (Vdda - Vref) }
  else if channel = 17 then do
    let Vref ← randomVref s.Vdda (env.rand 0)
    .ok { s with Vref, DR := BitVec.ofInt 32 Vref }
  else .ok { s with DR := env.wave &&& 0xfff }

/-- `stm32_adc_start_conv`.  The interrupt is not updated. -/
def startConv (s : Stm32Adc) : Except Fault Stm32Adc := do
  let channelNumber ← s.getChannelNumber 1
  let s ← s.convert env channelNumber
  let s := { s with SR := s.SR &&& ~~~ 0x02, CR2 := s.CR2 &&& ~~~ 0x00400000 }
  let cycles ← s.getNbrCyclePerSample channelNumber
  .ok { s with convTimer := some (timerMod (env.now + cycles)) }

/-- The port of a channel with its name, and the pin. -/
def channelPin (channel : ℕ) : (ℕ × String) × ℕ :=
  if 10 ≤ channel then ((2, "C"), channel - 10)
  else if channel = 9 ∨ channel = 8 then ((1, "B"), channel - 8)
  else ((0, "A"), channel)

/-- `stm32_ADC_GPIO_check`. -/
def gpioCheck (channel : ℕ) : Except Fault Unit :=
  if channel < 16 then
    let ((port, name), pin) := channelPin channel
    let gpioDev := env.gpio port
    if gpioDev.getModeBits pin ≠ 0 then
      .error (.hwError ("GPIO" ++ name ++ " pin:" ++ toString pin ++ " needs to be configured as input"))
    else if gpioDev.getConfigBits pin ≠ 0 then
      .error (.hwError
        ("GPIO" ++ name ++ " pin:" ++ toString pin ++ " needs to be configured as Analog input"))
    else .ok ()
  else .ok ()

/-! ## Registers -/

/-- `stm32_ADC_SR_write`. -/
def srWrite (s : Stm32Adc) (newValue : BitVec 32) : Except Fault Stm32Adc :=
  if newValue &&& 0x02 ≠ 0 then .error (.hwError "Software attempted to set ADC SR_EOC bit\n")
  else if newValue &&& 0x04 ≠ 0 then .error (.hwError "Software attempted to set ADC SR_JEOC bit\n")
  else if newValue &&& 0x01 ≠ 0 then .error (.hwError "Software attempted to set ADC SR_EOC bit\n")
  else if newValue &&& 0x08 ≠ 0 then .error (.hwError "Software attempted to set ADC SR_JSTRT bit\n")
  else if newValue &&& 0x10 ≠ 0 then .error (.hwError "Software attempted to set ADC SR_STRT bit\n")
  else .ok (updateIrq { s with SR := newValue &&& 0x1f })

/-- `stm32_ADC_SQR1_write`. -/
def sqr1Write (s : Stm32Adc) (newValue : BitVec 32) : Except Fault Stm32Adc :=
  if newValue >>> 20 &&& 0xf > 1 then .error (.hwError "Mode Single conversion is only implemented\n")
  else .ok { s with SQR1 := newValue &&& 0x00ffffff }

/-- `stm32_ADC_CR2_write`. -/
def cr2Write (s : Stm32Adc) (newValue : BitVec 32) : Except Fault Stm32Adc := do
  let s := { s with CR2 := newValue &&& 0x00fef90f }
  if s.CR2 &&& 0x00400000 ≠ 0 then
    if s.CR2 &&& 0x01 = 0 then
      .error (.hwError "Attempted to start conversion while ADC was disabled\n")
    else do
      gpioCheck env (← s.getChannelNumber 1)
      s.startConv env
  else .ok s

/-- `stm32_ADC_DR_read`. -/
def drRead (s : Stm32Adc) : Except Fault (BitVec 32 × Stm32Adc) :=
  if s.CR2 &&& 0x01 = 0 then
    .error (.hwError "Attempted to read from ADC_DR while ADC was disabled\n")
  else if s.SR &&& 0x02 ≠ 0 then .ok (s.DR, updateIrq { s with SR := s.SR &&& ~~~ 0x02 })
  else .error (.hwError "Attempted to read ADC_DR while conversion is not complete\n")

/-- `stm32_adc_reset`.  The timer goes on. -/
def reset (s : Stm32Adc) : Stm32Adc :=
  updateIrq { s with
    SR := 0, CR1 := 0, CR2 := 0, SMPR1 := 0, SMPR2 := 0, JOFR1 := 0, JOFR2 := 0, JOFR3 := 0, JOFR4 := 0
    HTR := 0, LTR := 0, SQR1 := 0, SQR2 := 0, SQR3 := 0, JSQR := 0, JDR1 := 0, JDR2 := 0, JDR3 := 0
    JDR4 := 0, DR := 0 }

/-- `stm32_adc_read`. -/
def read (s : Stm32Adc) (offset size : ℕ) : Except Fault (BitVec 64 × Stm32Adc) :=
  let field (v : BitVec 32) : BitVec 64 := extract64 (v.setWidth 64) (offset % 4 * 8) (size * 8)
  match offset / 4 * 4 with
  | 0x00 => .ok (field s.SR, s)
  | 0x04 => .ok (field s.CR1, s)
  -- the calibration is over at once
  | 0x08 => .ok (field s.CR2 &&& ~~~ 0x08 &&& ~~~ 0x04, s)
  | 0x0c => .ok (field s.SMPR1, s)
  | 0x10 => .ok (field s.SMPR2, s)
  | 0x14 => .ok (field s.JOFR1, s)
  | 0x18 => .ok (field s.JOFR2, s)
  | 0x1c => .ok (field s.JOFR3, s)
  | 0x20 => .ok (field s.JOFR4, s)
  | 0x24 => .ok (field s.HTR, s)
  | 0x28 => .ok (field s.LTR, s)
  | 0x2c => .ok (field s.SQR1, s)
  | 0x30 => .ok (field s.SQR2, s)
  | 0x34 => .ok (field s.SQR3, s)
  | 0x38 => .ok (field s.JSQR, s)
  | 0x3c => .ok (field s.JDR1, s)
  | 0x40 => .ok (field s.JDR2, s)
  | 0x44 => .ok (field s.JDR3, s)
  | 0x48 => .ok (field s.JDR4, s)
  | 0x4c => do
    let (value, s) ← s.drRead
    .ok (field value, s)
  | _ => .ok (0, s)

/-- The register part of `stm32_adc_write`; the size of the access plays no part. -/
def writeReg (s : Stm32Adc) (offset : ℕ) (value : BitVec 64) : Except Fault Stm32Adc :=
  match offset / 4 * 4 with
  | 0x00 => s.srWrite (value.setWidth 32)
  | 0x04 => .ok (updateIrq { s with CR1 := (value &&& 0x00cfffff).setWidth 32 })
  | 0x08 => s.cr2Write env (value.setWidth 32)
  | 0x0c => .ok { s with SMPR1 := (value &&& 0x00ffffff).setWidth 32 }
  | 0x10 => .ok { s with SMPR2 := (value &&& 0x3fffffff).setWidth 32 }
  | 0x14 => .ok { s with JOFR1 := (value &&& 0x00000fff).setWidth 32 }
  | 0x18 => .ok { s with JOFR2 := (value &&& 0x00000fff).setWidth 32 }
  | 0x1c => .ok { s with JOFR3 := (value &&& 0x00000fff).setWidth 32 }
  | 0x20 => .ok { s with JOFR4 := (value &&& 0x00000fff).setWidth 32 }
  | 0x24 => .ok { s with HTR := (value &&& 0x00000fff).setWidth 32 }
  | 0x28 => .ok { s with LTR := (value &&& 0x00000fff).setWidth 32 }
  | 0x2c => s.sqr1Write (value.setWidth 32)
  | 0x30 => .ok { s with SQR2 := (value &&& 0x3fffffff).setWidth 32 }
  | 0x34 => .ok { s with SQR3 := (value &&& 0x3fffffff).setWidth 32 }
  | 0x38 => .ok { s with JSQR := (value &&& 0x003fffff).setWidth 32 }
  | _ => .ok s

/-- `stm32_adc_write`. -/
def write (s : Stm32Adc) (offset : ℕ) (value : BitVec 64) : Except Fault Stm32Adc := do
  Stm32Rcc.checkPeriphClk s.periph
  s.writeReg env offset value

/-- The device before its initialization. -/
def powerOn (periph : Periph) : Stm32Adc :=
  ⟨periph, fun _ => 0, 0, 0, 0, 0, 0, 0, 0, 0, 0, 0, 0, 0, 0, 0, 0, 0, 0, 0, 0, 0, none, 0, 0, 0, 0⟩

/-- `stm32_adc_init`.  The registration of the clock handler is part of the board. -/
def init (periph : Periph) : Except Fault Stm32Adc := do
  let s := reset (powerOn periph)
  let Vdda : ℤ := (env.rand 0 : ℤ) % (1200 + 1) + 2400
  let Vref ← randomVref Vdda (env.rand 1)
  .ok { s with Vdda, Vref }

/-! ## The device -/

/-- What can happen to the converter. -/
inductive Op where
  | read (offset size : ℕ)
  | write (offset : ℕ) (value : BitVec 64) (size : ℕ)
  | clkIrq (level : Bool)
  | convTimerExpire
  | reset

/-- An operation, with the other devices as they are at that moment. -/
def step (s : Stm32Adc) (o : AdcEnv × Op) : Except Fault Stm32Adc :=
  match o.2 with
  | .read offset size => do
    let (_, s) ← s.read offset size
    .ok s
  | .write offset value _ => s.write o.1 offset value
  | .clkIrq level => s.clkIrqHandler o.1 0 level
  | .convTimerExpire =>
    .ok (if s.convTimer.isSome then convComplete { s with convTimer := none } else s)
  | .reset => .ok s.reset

end Stm32Adc

end Bluepill
