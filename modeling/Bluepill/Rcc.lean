/-
  Reset and clock control (`hw/arm/stm32_rcc.c`).

  The clocks are numbered in the order in which `stm32_rcc_init_clk` creates
  them.  The registers proper (`RccRegs`) are kept apart from the clock tree,
  which holds the enable bits, the scales and the selected inputs.

  `stm32_hw_warn` only prints; the warnings of the register writes are
  collected, those of `stm32_rcc_check_periph_clk` and the log messages of bad
  accesses are not.
-/
import Bluepill.Clktree.Calls

namespace Bluepill

/-- `stm32_periph_t`. -/
inductive Periph where
  | RCC_PERIPH
  | GPIOA | GPIOB | GPIOC | GPIOD | GPIOE | GPIOF | GPIOG | GPIOH | GPIOI | GPIOJ | GPIOK
  | SYSCFG | AFIO_PERIPH
  | UART1 | UART2 | UART3 | UART4 | UART5 | UART6 | UART7 | UART8
  | ADC1 | ADC2 | ADC3 | DAC
  | TIM1 | TIM2 | TIM3 | TIM4 | TIM5 | TIM6 | TIM7 | TIM8 | TIM9 | TIM10 | TIM11 | TIM12 | TIM13
  | TIM14
  | BKP | PWR | I2C1 | I2C2 | I2C3 | I2S2 | I2S3 | WWDG | IWDG | CAN1 | CAN2 | CAN | USB
  | SPI1 | SPI2 | SPI3 | EXTI_PERIPH | SDIO | FSMC | RTC | COMP | LCD | CRC | DMA1 | DMA2
  | DCMI_PERIPH | CRYP_PERIPH | HASH_PERIPH | RNG_PERIPH
  deriving DecidableEq, Repr

/-- `stm32_periph_name_arr`.  It has not followed the growth of `stm32_periph_t`,
    and lacks a comma after `"IWDG"`. -/
def periphNameArr : List String :=
  ["RCC", "GPIOA", "GPIOB", "GPIOC", "GPIOD", "GPIOE", "GPIOF", "GPIOG", "AFIO",
   "UART1", "UART2", "UART3", "UART4", "UART5", "ADC1", "ADC2", "ADC3", "DAC",
   "TIM1", "TIM2", "TIM3", "TIM4", "TIM5", "TIM6", "TIM7", "TIM8", "BKP", "PWR",
   "I2C1", "I2C2", "I2S1", "I2S2", "IWDGWWDG", "CAN1", "CAN2", "CAN", "USB",
   "SPI1", "SPI2", "SPI3", "EXTI", "SDIO", "FSMC", "RTC"]

/-- `stm32_periph_name`. -/
def periphName (p : Periph) : Except Fault String :=
  match periphNameArr[p.ctorIdx]? with
  | some name => .ok name
  | none => .error .outOfBounds

/-! ## The clocks -/

def HSI_FREQ : BitVec 32 := 8000000
def LSI_FREQ : BitVec 32 := 40000

namespace Rcc

abbrev HSICLK : ClkId := 0
abbrev LSICLK : ClkId := 1
abbrev HSECLK : ClkId := 2
abbrev LSECLK : ClkId := 3
abbrev HSE_DIV128 : ClkId := 4
abbrev HSI_DIV2 : ClkId := 5
abbrev HSE_DIV2 : ClkId := 6
abbrev PLLXTPRECLK : ClkId := 7
abbrev PLLCLK : ClkId := 8
abbrev SYSCLK : ClkId := 9
abbrev HCLK : ClkId := 10
abbrev PCLK1 : ClkId := 11
abbrev PCLK2 : ClkId := 12

/-- `PERIPHCLK[]`, `NULL` for the peripherals without a clock. -/
def PERIPHCLK : Periph → Option ClkId
  | .GPIOA => some 13 | .GPIOB => some 14 | .GPIOC => some 15 | .GPIOD => some 16
  | .GPIOE => some 17 | .GPIOF => some 18 | .GPIOG => some 19 | .AFIO_PERIPH => some 20
  | .UART1 => some 21 | .UART2 => some 22 | .UART3 => some 23 | .UART4 => some 24
  | .UART5 => some 25 | .TIM1 => some 26 | .TIM2 => some 27 | .TIM3 => some 28
  | .TIM4 => some 29 | .TIM5 => some 30 | .TIM6 => some 31 | .TIM7 => some 32
  | .TIM8 => some 33 | .ADC1 => some 34 | .RTC => some 35 | .DAC => some 36
  | .CRC => some 37 | .DMA1 => some 38
  | _ => none

/-- The user of `HCLK`, handled by `stm32_rcc_hclk_upd_irq_handler`. -/
def hclkUpdIrq : Irq := 0

/-- A peripheral clock: initially disabled, scale `1/1`, one input. -/
def periphClk (name : String) (input : ClkId) : Call :=
  .createClk name 1 1 false CLKTREE_NO_MAX_FREQ 0 [input]

/-- `stm32_rcc_init_clk`. -/
def initClk (oscFreq osc32Freq : BitVec 32) : List Call :=
  [.createSrcClk "HSI" HSI_FREQ false,
   .createSrcClk "LSI" LSI_FREQ false,
   .createSrcClk "HSE" oscFreq false,
   .createSrcClk "LSE" osc32Freq false,
   .createClk "HSE/128" 1 128 true CLKTREE_NO_MAX_FREQ 0 [HSECLK],
   .createClk "HSI/2" 1 2 true CLKTREE_NO_MAX_FREQ 0 [HSICLK],
   .createClk "HSE/2" 1 2 true CLKTREE_NO_MAX_FREQ 0 [HSECLK],
   .createClk "PLLXTPRE" 1 1 true CLKTREE_NO_MAX_FREQ CLKTREE_NO_INPUT [HSECLK, HSE_DIV2],
   .createClk "PLLCLK" 0 1 false 72000000 CLKTREE_NO_INPUT [HSI_DIV2, PLLXTPRECLK],
   .createClk "SYSCLK" 1 1 true 72000000 CLKTREE_NO_INPUT [HSICLK, HSECLK, PLLCLK],
   .createClk "HCLK" 0 1 true 72000000 0 [SYSCLK],
   .adduser HCLK hclkUpdIrq,
   .createClk "PCLK1" 0 1 true 36000000 0 [HCLK],
   .createClk "PCLK2" 0 1 true 72000000 0 [HCLK],
   periphClk "GPIOA" PCLK2, periphClk "GPIOB" PCLK2, periphClk "GPIOC" PCLK2,
   periphClk "GPIOD" PCLK2, periphClk "GPIOE" PCLK2, periphClk "GPIOF" PCLK2,
   periphClk "GPIOG" PCLK2, periphClk "AFIO" PCLK2,
   periphClk "UART1" PCLK2, periphClk "UART2" PCLK1, periphClk "UART3" PCLK1,
   periphClk "UART4" PCLK1, periphClk "UART5" PCLK1,
   periphClk "TIM1" PCLK2, periphClk "TIM2" PCLK1, periphClk "TIM3" PCLK1,
   periphClk "TIM4" PCLK1, periphClk "TIM5" PCLK1, periphClk "TIM6" PCLK1,
   periphClk "TIM7" PCLK1, periphClk "TIM8" PCLK2, periphClk "ADC1" PCLK2,
   .createClk "RTC" 1 1 false CLKTREE_NO_MAX_FREQ (-1) [LSECLK, LSICLK, HSE_DIV128],
   periphClk "DAC" PCLK1, periphClk "CRC" HCLK, periphClk "DMA1" HCLK]

end Rcc

open Rcc

/-! ## State -/

structure RccRegs where
  oscFreq : BitVec 32
  osc32Freq : BitVec 32
  APB1ENR : BitVec 32
  APB2ENR : BitVec 32
  AHBENR : BitVec 32
  CFGR_PLLMUL : BitVec 32
  CFGR_PLLXTPRE : BitVec 32
  CFGR_PLLSRC : BitVec 32
  CFGR_PPRE1 : BitVec 32
  CFGR_PPRE2 : BitVec 32
  CFGR_HPRE : BitVec 32
  CFGR_SW : BitVec 32
  RTC_SEL : BitVec 32
  CSR_LPWRRSTFb : Bool
  CSR_WWDGRSTFb : Bool
  CSR_IWDGRSTFb : Bool
  warnings : List String

/-- `struct Stm32Rcc`. -/
structure Stm32Rcc extends RccRegs where
  clktree : ClkTree

namespace Stm32Rcc

/-- `stm32_rcc_init`, with the properties the board sets. -/
def init (oscFreq osc32Freq : BitVec 32) : Except Fault Stm32Rcc := do
  let calls := initClk oscFreq osc32Freq
  let clktree ← Machine.run (ClkTree.call calls.length) .empty calls
  .ok { oscFreq, osc32Freq, APB1ENR := 0, APB2ENR := 0, AHBENR := 0, CFGR_PLLMUL := 0
        CFGR_PLLXTPRE := 0, CFGR_PLLSRC := 0, CFGR_PPRE1 := 0, CFGR_PPRE2 := 0, CFGR_HPRE := 0
        CFGR_SW := 0, RTC_SEL := 0, CSR_LPWRRSTFb := false, CSR_WWDGRSTFb := false
        CSR_IWDGRSTFb := false, warnings := [], clktree }

/-- A call of `clktree_set_enabled`, `clktree_set_scale` or
    `clktree_set_selected_input`. -/
def update (s : Stm32Rcc) (c : ClkId) (m : Update) : Except Fault Stm32Rcc := do
  let clktree ← s.clktree.update s.clktree.size c m
  .ok { s with clktree }

/-- `stm32_hw_warn`, if `cond`. -/
def warnIf (s : Stm32Rcc) (cond : Bool) (msg : String) : Stm32Rcc :=
  if cond then { s with warnings := s.warnings ++ [msg] } else s

/-- `stm32_rcc_periph_enable`: enable the peripheral clock if the bit is set. -/
def periphEnable (host : Host) (newValue : BitVec 32) (s : Stm32Rcc) (p : Periph × ℕ) :
    Except Fault Stm32Rcc :=
  match PERIPHCLK p.1 with
  | some c => s.update c (.enabled (testBIT host newValue p.2))
  | none => .error .nullDeref

/-! ## Registers -/

def SW_HSI_SELECTED : BitVec 32 := 0
def SW_HSE_SELECTED : BitVec 32 := 1
def SW_PLL_SELECTED : BitVec 32 := 2
def PLLSRC_HSI_SELECTED : BitVec 32 := 0
def PLLSRC_HSE_SELECTED : BitVec 32 := 1

/-- `clktree_is_enabled(clk) ? 1 : 0`. -/
def onBit (s : Stm32Rcc) (c : ClkId) : BitVec 32 := if s.clktree.isEnabled c then 1 else 0

/-- `stm32_rcc_RCC_CR_read`. -/
def crRead (s : Stm32Rcc) : BitVec 32 :=
  s.onBit PLLCLK <<< 25 ||| s.onBit PLLCLK <<< 24 ||| s.onBit HSECLK <<< 17 |||
    s.onBit HSECLK <<< 16 ||| s.onBit HSICLK <<< 1 ||| s.onBit HSICLK <<< 0

/-- `stm32_rcc_RCC_CR_write`. -/
def crWrite (host : Host) (s : Stm32Rcc) (newValue : BitVec 32) : Except Fault Stm32Rcc := do
  let newPllon := testBIT host newValue 24
  let s := s.warnIf ((s.clktree.isEnabled PLLCLK && !newPllon) && s.CFGR_SW == SW_PLL_SELECTED)
    "PLL cannot be disabled while it is selected as the system clock."
  let s ← s.update PLLCLK (.enabled newPllon)
  let newHseon := testBIT host newValue 16
  let s := s.warnIf ((s.clktree.isEnabled HSECLK && !newHseon) &&
      (s.CFGR_SW == SW_HSE_SELECTED ||
        (s.CFGR_SW == SW_PLL_SELECTED && s.CFGR_PLLSRC == PLLSRC_HSE_SELECTED)))
    "HSE oscillator cannot be disabled while it is driving the system clock."
  let s ← s.update HSECLK (.enabled newHseon)
  let newHsion := testBIT host newValue 0
  let s := s.warnIf ((s.clktree.isEnabled HSICLK && !newHsion) &&
      (s.CFGR_SW == SW_HSI_SELECTED ||
        (s.CFGR_SW == SW_PLL_SELECTED && s.CFGR_PLLSRC == PLLSRC_HSI_SELECTED)))
    "HSI oscillator cannot be disabled while it is driving the system clock."
  s.update HSICLK (.enabled newHsion)

/-- `stm32_rcc_RCC_CFGR_read`. -/
def cfgrRead (s : RccRegs) : BitVec 32 :=
  s.CFGR_PLLMUL <<< 18 ||| s.CFGR_PLLXTPRE <<< 17 ||| s.CFGR_PLLSRC <<< 16 |||
    s.CFGR_PPRE2 <<< 11 ||| s.CFGR_PPRE1 <<< 8 ||| s.CFGR_HPRE <<< 4 ||| s.CFGR_SW <<< 0 |||
    s.CFGR_SW <<< 2

/-- The divisor of an APB prescaler. -/
def ppreDivisor (ppre : BitVec 32) : BitVec 16 :=
  if ppre < 4 then 1 else (2 * (ppre - 3)).setWidth 16

/-- The divisor of the AHB prescaler. -/
def hpreDivisor (hpre : BitVec 32) : BitVec 16 :=
  if hpre < 8 then 1 else (2 * (hpre - 7)).setWidth 16

/-- The multiplier of the PLL. -/
def pllMultiplier (pllmul : BitVec 32) : BitVec 16 :=
  if pllmul = 0xf then 16 else (pllmul + 2).setWidth 16

/-- `stm32_rcc_RCC_CFGR_write`. -/
def cfgrWrite (s : Stm32Rcc) (newValue : BitVec 32) (init : Bool) : Except Fault Stm32Rcc := do
  let newPLLMUL := extract32 newValue 18 4
  let s := s.warnIf (!init && (s.clktree.isEnabled PLLCLK && newPLLMUL != s.CFGR_PLLMUL))
    "Can only change PLLMUL while PLL is disabled"
  assert (newPLLMUL ≤ 0xf)
  let s ← s.update PLLCLK (.scale (pllMultiplier newPLLMUL) 1)
  let s := { s with CFGR_PLLMUL := newPLLMUL }
  let newPLLXTPRE := extract32 newValue 17 1
  let s := s.warnIf (!init && (s.clktree.isEnabled PLLCLK && newPLLXTPRE != s.CFGR_PLLXTPRE))
    "Can only change PLLXTPRE while PLL is disabled"
  let s ← s.update PLLXTPRECLK (.selectedInput newPLLXTPRE.toNat)
  let s := { s with CFGR_PLLXTPRE := newPLLXTPRE }
  let newPLLSRC := extract32 newValue 16 1
  let s := s.warnIf (!init && (s.clktree.isEnabled PLLCLK && newPLLSRC != s.CFGR_PLLSRC))
    "Can only change PLLSRC while PLL is disabled"
  let s ← s.update PLLCLK (.selectedInput newPLLSRC.toNat)
  let s := { s with CFGR_PLLSRC := newPLLSRC }
  let s := { s with CFGR_PPRE2 := (newValue &&& 0x00003c00) >>> 11 }
  let s ← s.update PCLK2 (.scale 1 (ppreDivisor s.CFGR_PPRE2))
  let s := { s with CFGR_PPRE1 := (newValue &&& 0x00000700) >>> 8 }
  let s ← s.update PCLK1 (.scale 1 (ppreDivisor s.CFGR_PPRE1))
  let s := { s with CFGR_HPRE := (newValue &&& 0x000000f0) >>> 4 }
  let s ← s.update HCLK (.scale 1 (hpreDivisor s.CFGR_HPRE))
  let s := { s with CFGR_SW := (newValue &&& 0x00000003) >>> 0 }
  if s.CFGR_SW = 0 ∨ s.CFGR_SW = 1 ∨ s.CFGR_SW = 2 then
    s.update SYSCLK (.selectedInput s.CFGR_SW.toNat)
  else .error (.hwError "Invalid input selected for SYSCLK")

/-- The clocks governed by `RCC_APB2ENR`, and their bits. -/
def apb2Periphs : List (Periph × ℕ) :=
  [(.ADC1, 9), (.UART1, 14), (.GPIOE, 6), (.GPIOD, 5), (.GPIOC, 4), (.GPIOB, 3), (.GPIOA, 2),
   (.AFIO_PERIPH, 0), (.GPIOG, 8), (.GPIOF, 7), (.TIM1, 11), (.TIM8, 13)]

/-- The clocks governed by `RCC_AHBENR`, and their bits. -/
def ahbPeriphs : List (Periph × ℕ) := [(.CRC, 64), (.DMA1, 1)]

/-- The clocks governed by `RCC_APB1ENR`, and their bits. -/
def apb1Periphs : List (Periph × ℕ) :=
  [(.UART5, 20), (.UART4, 19), (.UART3, 18), (.UART2, 17), (.TIM2, 0), (.TIM3, 1), (.TIM4, 2),
   (.TIM5, 3), (.TIM6, 4), (.TIM7, 5)]

/-- `stm32_rcc_RCC_APB2ENR_write`. -/
def apb2enrWrite (host : Host) (s : Stm32Rcc) (newValue : BitVec 32) : Except Fault Stm32Rcc := do
  let s ← apb2Periphs.foldlM (periphEnable host newValue) s
  .ok { s with APB2ENR := newValue &&& 0x0000fffd }

/-- `stm32_rcc_RCC_AHBENR_write`. -/
def ahbenrWrite (host : Host) (s : Stm32Rcc) (newValue : BitVec 32) : Except Fault Stm32Rcc := do
  let s ← ahbPeriphs.foldlM (periphEnable host newValue) s
  .ok { s with AHBENR := newValue &&& 0x0000fffd }

/-- `stm32_rcc_RCC_APB1ENR_write`. -/
def apb1enrWrite (host : Host) (s : Stm32Rcc) (newValue : BitVec 32) : Except Fault Stm32Rcc := do
  let s ← apb1Periphs.foldlM (periphEnable host newValue) s
  .ok { s with APB1ENR := newValue &&& 0x00005e7d }

/-- The clock of the RTC. -/
abbrev RTCCLK : ClkId := 35

/-- `stm32_rcc_RCC_BDCR_read`. -/
def bdcrRead (s : Stm32Rcc) : BitVec 32 :=
  s.onBit LSECLK <<< 1 ||| s.onBit LSECLK <<< 0 ||| s.RTC_SEL <<< 8 ||| s.onBit RTCCLK <<< 15

/-- `stm32_rcc_RCC_BDCR_write`. -/
def bdcrWrite (host : Host) (s : Stm32Rcc) (newValue : BitVec 32) : Except Fault Stm32Rcc := do
  let s ← s.update LSECLK (.enabled (testBIT host newValue 0))
  let s := { s with RTC_SEL := (newValue &&& 0x00000300) >>> 8 }
  -- `RTC_SEL-1` is unsigned, and becomes `-1` as an `int`
  let s ← s.update RTCCLK (.selectedInput (s.RTC_SEL - 1).toInt)
  if s.RTC_SEL ≠ 0 then s.update RTCCLK (.enabled ((newValue >>> 15 &&& 0x01) != 0)) else .ok s

/-- `stm32_rcc_RCC_CSR_read`. -/
def csrRead (s : Stm32Rcc) : BitVec 32 :=
  s.onBit LSICLK <<< 1 ||| s.onBit LSICLK <<< 0 ||| (if s.CSR_IWDGRSTFb then 1 else 0) <<< 29

/-- `stm32_rcc_RCC_CSR_write`. -/
def csrWrite (host : Host) (s : Stm32Rcc) (newValue : BitVec 32) : Except Fault Stm32Rcc :=
  s.update LSICLK (.enabled (testBIT host newValue 0))

/-! ## Bus accesses -/

/-- `stm32_rcc_readw`. -/
def readw (s : Stm32Rcc) (offset : ℕ) : BitVec 64 :=
  match offset with
  | 0x00 => s.crRead.setWidth 64
  | 0x04 => (cfgrRead s.toRccRegs).setWidth 64
  | 0x14 => s.AHBENR.setWidth 64
  | 0x18 => s.APB2ENR.setWidth 64
  | 0x1c => s.APB1ENR.setWidth 64
  | 0x20 => s.bdcrRead.setWidth 64
  | 0x24 => s.csrRead.setWidth 64
  | _ => 0  -- `CIR`, and registers that are not implemented

/-- `stm32_rcc_writew`. -/
def writew (host : Host) (s : Stm32Rcc) (offset : ℕ) (value : BitVec 64) : Except Fault Stm32Rcc :=
  match offset with
  | 0x00 => s.crWrite host (value.setWidth 32)
  | 0x04 => s.cfgrWrite (value.setWidth 32) false
  | 0x14 => s.ahbenrWrite host (value.setWidth 32)
  | 0x18 => s.apb2enrWrite host (value.setWidth 32)
  | 0x1c => s.apb1enrWrite host (value.setWidth 32)
  | 0x20 => s.bdcrWrite host (value.setWidth 32)
  | 0x24 => s.csrWrite host (value.setWidth 32)
  | _ => .ok s

/-- `stm32_rcc_read`. -/
def read (s : Stm32Rcc) (offset size : ℕ) : BitVec 64 := if size = 4 then s.readw offset else 0

/-- `stm32_rcc_write`. -/
def write (host : Host) (s : Stm32Rcc) (offset : ℕ) (value : BitVec 64) (size : ℕ) :
    Except Fault Stm32Rcc :=
  if size = 4 then s.writew host offset value else .ok s

/-- `stm32_rcc_reset`. -/
def reset (host : Host) (s : Stm32Rcc) : Except Fault Stm32Rcc := do
  let s ← s.crWrite host 0x00000083
  let s ← s.cfgrWrite 0x00000000 true
  let s ← s.apb2enrWrite host 0x00000000
  let s ← s.apb1enrWrite host 0x00000000
  let s ← s.ahbenrWrite host 0x00000000
  let s ← s.bdcrWrite host 0x00000000
  s.csrWrite host 0x0c000000

/-! ## Services for the peripherals -/

/-- `stm32_rcc_set_periph_clk_irq`. -/
def setPeriphClkIrq (s : Stm32Rcc) (p : Periph) (irq : Irq) : Except Fault Stm32Rcc :=
  match PERIPHCLK p with
  | some c => do
    let clktree ← s.clktree.adduser c irq
    .ok { s with clktree }
  | none => .error .assertion

/-- `stm32_rcc_get_periph_freq`. -/
def getPeriphFreq (s : Stm32Rcc) (p : Periph) : Except Fault (BitVec 32) :=
  match PERIPHCLK p with
  | some c => .ok (s.clktree.getOutputFreq c)
  | none => .error .assertion

/-- `stm32_rcc_check_periph_clk`, up to its warning. -/
def checkPeriphClk (p : Periph) : Except Fault Unit := assert (PERIPHCLK p).isSome

/-- `stm32_RCC_CSR_write`, called by the watchdog. -/
def setResetFlags (s : Stm32Rcc) (newValue : BitVec 32) : Stm32Rcc :=
  { s with
    CSR_LPWRRSTFb := newValue >>> 31 != 0
    CSR_WWDGRSTFb := newValue >>> 30 != 0
    CSR_IWDGRSTFb := newValue >>> 29 != 0 }

/-- What can happen to the device after its initialization. -/
inductive Op where
  | write (offset : ℕ) (value : BitVec 64) (size : ℕ)
  | reset
  | setPeriphClkIrq (p : Periph) (irq : Irq)
  | setResetFlags (newValue : BitVec 32)

def step (host : Host) (s : Stm32Rcc) : Op → Except Fault Stm32Rcc
  | .write offset value size => s.write host offset value size
  | .reset => s.reset host
  | .setPeriphClkIrq p irq => s.setPeriphClkIrq p irq
  | .setResetFlags newValue => .ok (s.setResetFlags newValue)

end Stm32Rcc

end Bluepill
