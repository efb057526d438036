/-
  The UART (`hw/char/stm32_uart.c`).

  The two settings of the source (`UartBuild`) are parameters; `shipped` is the
  build of the repository.  The flags of the registers are `0` or `1` in the
  source, and booleans here.

  An access sees the other devices in whatever state they are (`UartEnv`).  What
  the device does to the outside is recorded: the level of its interrupt, the
  bytes handed to the character device and the levels driven on the DMA
  controller.
-/
import Bluepill.Afio
import Bluepill.Gpio
import Bluepill.Rcc

namespace Bluepill

/-- `STM32_UART_NO_BAUD_DELAY` and `STM32_UART_ENABLE_OVERRUN`. -/
structure UartBuild where
  noBaudDelay : Bool
  enableOverrun : Bool

def UartBuild.shipped : UartBuild := ⟨true, false⟩

/-- The devices the UART looks at, and the time. -/
structure UartEnv where
  rcc : Stm32Rcc
  afio : Stm32Afio
  gpio : ℕ → Stm32Gpio
  now : BitVec 64

/-- `struct Stm32Uart`.  A timer is `none`, or runs until the time it has. -/
structure Stm32Uart where
  periph : Periph
  chr : Bool
  afioBoardMap : BitVec 32
  bitsPerSec : BitVec 32
  nsPerChar : BitVec 64
  RDR : BitVec 32
  TDR : BitVec 32
  BRR : BitVec 32
  CR1 : BitVec 32
  CR2 : BitVec 32
  CR3 : BitVec 32
  SR_TXE : Bool
  SR_TC : Bool
  SR_RXNE : Bool
  SR_ORE : Bool
  CR1_UE : Bool
  CR1_TXEIE : Bool
  CR1_TCIE : Bool
  CR1_RXNEIE : Bool
  CR1_TE : Bool
  CR1_RE : Bool
  srReadSinceOreSet : Bool
  receiving : Bool
  rxTimer : Option (BitVec 64)
  txTimer : Option (BitVec 64)
  txDmaTimer : Option (BitVec 64)
  irq : Bool
  currIrqLevel : Bool
  sent : List (BitVec 8)
  dmaIrq : List (BitVec 32)

namespace Stm32Uart

variable (build : UartBuild) (env : UartEnv)

/-- The state as allocated. -/
def init (periph : Periph) : Stm32Uart where
  periph := periph
  chr := false
  afioBoardMap := 0
  bitsPerSec := 0
  nsPerChar := 0
  RDR := 0
  TDR := 0
  BRR := 0
  CR1 := 0
  CR2 := 0
  CR3 := 0
  SR_TXE := false
  SR_TC := false
  SR_RXNE := false
  SR_ORE := false
  CR1_UE := false
  CR1_TXEIE := false
  CR1_TCIE := false
  CR1_RXNEIE := false
  CR1_TE := false
  CR1_RE := false
  srReadSinceOreSet := false
  receiving := false
  rxTimer := none
  txTimer := none
  txDmaTimer := none
  irq := false
  currIrqLevel := false
  sent := []
  dmaIrq := []

def USART_CR3_DMAR_BIT : BitVec 32 := 0x40
def USART_CR3_DMAT_BIT : BitVec 32 := 0x80

/-- `stm32_uart_baud_update`: ten bits per character. -/
def baudUpdate (s : Stm32Uart) : Except Fault Stm32Uart := do
  let clkFreq ← env.rcc.getPeriphFreq s.periph
  if s.BRR = 0 ∨ clkFreq = 0 then .ok { s with bitsPerSec := 0 }
  else
    let bitsPerSec := clkFreq / s.BRR
    if bitsPerSec = 0 then .error .divByZero
    else
      let nsPerBit : BitVec 64 := 1000000000 / bitsPerSec.setWidth 64
      .ok { s with bitsPerSec, nsPerChar := nsPerBit * 10 }

/-- `stm32_uart_clk_irq_handler`. -/
def clkIrqHandler (s : Stm32Uart) (n : ℕ) (level : Bool) : Except Fault Stm32Uart := do
  assert (n = 0)
  if level then baudUpdate env s else .ok s

/-- `stm32_uart_update_irq`. -/
def updateIrq (s : Stm32Uart) : Stm32Uart :=
  let newIrqLevel := (s.CR1_TCIE && s.SR_TC) || (s.CR1_TXEIE && s.SR_TXE) ||
    (s.CR1_RXNEIE && (s.SR_ORE || s.SR_RXNE))
  if newIrqLevel ^^ s.currIrqLevel then { s with irq := newIrqLevel, currIrqLevel := newIrqLevel }
  else s

/-- Only the interrupt changes. -/
theorem updateIrq_eq (s : Stm32Uart) :
    ∃ irq level, s.updateIrq = { s with irq := irq, currIrqLevel := level } := by
  unfold updateIrq; dsimp only; split
  · exact ⟨_, _, rfl⟩
  · exact ⟨s.irq, s.currIrqLevel, rfl⟩

@[simp] theorem updateIrq_TXE (s : Stm32Uart) : s.updateIrq.SR_TXE = s.SR_TXE := by
  obtain ⟨_, _, h⟩ := s.updateIrq_eq; rw [h]

/-! ## Transmission -/

mutual

/-- `stm32_uart_tx_complete`. -/
def txComplete (s : Stm32Uart) : Stm32Uart :=
  if s.SR_TXE then updateIrq { s with SR_TC := true }
  else startTx (updateIrq { s with SR_TXE := true }) s.TDR
termination_by if s.SR_TXE then 0 else 2
decreasing_by simp_all

/-- `stm32_uart_start_tx`.  The ninth bit is dropped. -/
def startTx (s : Stm32Uart) (value : BitVec 32) : Stm32Uart :=
  let ch : BitVec 8 := value.setWidth 8
  let s := { s with SR_TC := false, sent := if s.chr then s.sent ++ [ch] else s.sent }
  if build.noBaudDelay then txComplete s
  else { s with txTimer := some (env.now + s.nsPerChar) }
termination_by if s.SR_TXE then 1 else 3
decreasing_by split <;> simp_all

end

/-- The transmit pin of a UART, by its mapping: the index of the port, and the pin. -/
def txPin (periph : Periph) (afio : Stm32Afio) : Except Fault (ℕ × ℕ) :=
  match periph with
  | .UART1 => do
    let map ← afio.getPeriphMap .UART1
    if map = 0 then .ok (0, 9) else if map = 1 then .ok (1, 6) else .error .assertion
  | .UART2 => do
    let map ← afio.getPeriphMap .UART2
    if map = 0 then .ok (0, 2) else if map = 1 then .ok (3, 5) else .error .assertion
  | .UART3 => do
    let map ← afio.getPeriphMap .UART3
    if map = 0 then .ok (1, 10) else if map = 1 then .ok (2, 10)
    else if map = 3 then .ok (3, 8) else .error .assertion
  | _ => .error .assertion

/-- `stm32_uart_check_tx_pin`. -/
def checkTxPin (s : Stm32Uart) : Except Fault Unit := do
  let (port, pin) ← txPin s.periph env.afio
  let gpioDev := env.gpio port
  if gpioDev.getModeBits pin = 0 then
    .error (.hwError "UART TX pin needs to be configured as output")
  else
    let config := gpioDev.getConfigBits pin
    if config ≠ 2 ∧ config ≠ 3 then
      .error (.hwError "UART TX pin needs to be configured as alternate function output")
    else .ok ()

/-! ## Timers and the character device -/

/-- `stm32_uart_rx_timer_expire`. -/
def rxTimerExpire (s : Stm32Uart) : Stm32Uart :=
  { s with receiving := false, rxTimer := some (env.now + s.nsPerChar) }

/-- `stm32_uart_tx_dma_timer_expire`. -/
def txDmaTimerExpire (s : Stm32Uart) : Stm32Uart :=
  if s.CR3 &&& USART_CR3_DMAT_BIT ≠ 0 then
    let s := txComplete build env { s with dmaIrq := s.dmaIrq ++ [0x00000011, 0x00000000] }
    { s with txDmaTimer := some (env.now + s.nsPerChar) }
  else s

/-- `stm32_uart_can_receive`. -/
def canReceive (s : Stm32Uart) : Bool :=
  if s.CR1_UE && s.CR1_RE then
    if s.receiving then false
    else if build.enableOverrun then true
    else !s.SR_RXNE
  else true

/-- The first half of `stm32_uart_receive`: a byte that finds the buffer full is an
    overrun. -/
def accept (s : Stm32Uart) (b : BitVec 8) : Stm32Uart :=
  if s.CR1_UE && s.CR1_RE then
    let s := if s.SR_RXNE then updateIrq { s with SR_ORE := true, srReadSinceOreSet := false } else s
    updateIrq { s with RDR := b.setWidth 32, SR_RXNE := true }
  else s

/-- `stm32_uart_receive`: of `buf` only the first byte is looked at. -/
def receive (s : Stm32Uart) (buf : List (BitVec 8)) : Except Fault Stm32Uart :=
  match buf with
  | [] => .error .assertion
  | b :: _ =>
    let s := s.accept b
    if s.CR3 &&& USART_CR3_DMAR_BIT ≠ 0 then
      .ok { s with dmaIrq := s.dmaIrq ++ [0x00000010, 0x00000000] }
    else
      let s := if build.noBaudDelay then s else { s with receiving := true }
      .ok { s with rxTimer := some (env.now + s.nsPerChar) }

/-! ## Registers -/

/-- A flag as a number. -/
def flag (b : Bool) : BitVec 32 := if b then 1 else 0

/-- `stm32_uart_USART_SR_read`. -/
def srRead (s : Stm32Uart) : BitVec 32 × Stm32Uart :=
  let s := if s.SR_ORE then { s with srReadSinceOreSet := true } else s
  (flag s.SR_TXE <<< 7 ||| flag s.SR_TC <<< 6 ||| flag s.SR_RXNE <<< 5 ||| flag s.SR_ORE <<< 3, s)

/-- `stm32_uart_USART_SR_write`: `TC` and `RXNE` can be cleared, but not set. -/
def srWrite (s : Stm32Uart) (newValue : BitVec 32) : Except Fault Stm32Uart :=
  let newTC := extract32 newValue 6 1
  if newTC ≠ 0 then .error (.hwError "Software attempted to set USART TC bit\n")
  else
    let newRXNE := extract32 newValue 5 1
    if newRXNE ≠ 0 then .error (.hwError "Software attempted to set USART RXNE bit\n")
    else .ok (updateIrq { s with SR_TC := newTC != 0, SR_RXNE := newRXNE != 0 })

/-- The overrun flag is cleared by a read of `SR` followed by a read of `DR`. -/
def clearOre (s : Stm32Uart) : Stm32Uart :=
  if s.SR_ORE && s.srReadSinceOreSet then { s with SR_ORE := false } else s

/-- `stm32_uart_USART_DR_read`. -/
def drRead (s : Stm32Uart) : Except Fault (BitVec 32 × Stm32Uart) :=
  let s := s.clearOre
  if !s.CR1_UE then
    .error (.hwError "Attempted to read from USART_DR while UART was disabled.")
  else if !s.CR1_RE then
    .error (.hwError "Attempted to read from USART_DR while UART receiver was disabled.")
  else if s.SR_RXNE then .ok (s.RDR, updateIrq { s with SR_RXNE := false })
  else .error (.hwError "Read value from USART_DR while it was empty.")

/-- `stm32_uart_USART_DR_write`. -/
def drWrite (s : Stm32Uart) (newValue : BitVec 32) : Except Fault Stm32Uart :=
  let writeValue := newValue &&& 0x000001ff
  if !s.CR1_UE then
    .error (.hwError "Attempted to write to USART_DR while UART was disabled.")
  else if !s.CR1_TE then
    .error (.hwError "Attempted to write to USART_DR while UART transmitter was disabled.")
  else do
    checkTxPin env s
    if s.SR_TC then .ok (updateIrq (startTx build env s writeValue))
    else if s.SR_TXE then .ok (updateIrq { s with TDR := writeValue, SR_TXE := false })
    else .error (.hwError "Wrote new value to USART_DR while it was non-empty.")

/-- `stm32_uart_USART_BRR_write`. -/
def brrWrite (s : Stm32Uart) (newValue : BitVec 32) : Except Fault Stm32Uart :=
  baudUpdate env { s with BRR := newValue &&& 0x0000ffff }

/-- The mapping is checked when the UART is enabled. -/
def checkMap (s : Stm32Uart) : Except Fault Unit :=
  if s.CR1_UE then do
    let map ← env.afio.getPeriphMap s.periph
    if s.afioBoardMap ≠ map then
      let name ← periphName s.periph
      .error (.hwError ("Bad AFIO mapping for " ++ name))
    else .ok ()
  else .ok ()

/-- `stm32_uart_USART_CR1_write`. -/
def cr1Write (s : Stm32Uart) (newValue : BitVec 32) : Except Fault Stm32Uart := do
  let s := { s with CR1_UE := extract32 newValue 13 1 != 0 }
  checkMap env s
  .ok (updateIrq { s with
    CR1_TXEIE := extract32 newValue 7 1 != 0
    CR1_TCIE := extract32 newValue 6 1 != 0
    CR1_RXNEIE := extract32 newValue 5 1 != 0
    CR1_TE := extract32 newValue 3 1 != 0
    CR1_RE := extract32 newValue 2 1 != 0
    CR1 := newValue &&& 0x00003fff })

/-- `stm32_uart_USART_CR2_write`. -/
def cr2Write (s : Stm32Uart) (newValue : BitVec 32) : Stm32Uart :=
  { s with CR2 := newValue &&& 0x00007f7f }

/-- `stm32_uart_USART_CR3_write`. -/
def cr3Write (s : Stm32Uart) (newValue : BitVec 32) : Stm32Uart :=
  let s := { s with CR3 := newValue &&& 0x000007ff }
  if s.CR3 &&& USART_CR3_DMAT_BIT ≠ 0 then
    if build.noBaudDelay then s else { s with txDmaTimer := some (env.now + s.nsPerChar) }
  else s

/-- `stm32_uart_reset`. -/
def reset (s : Stm32Uart) : Except Fault Stm32Uart := do
  let s := { s with SR_TXE := true, SR_TC := true, SR_RXNE := false, SR_ORE := false }
  let s ← brrWrite env s 0x00000000
  let s ← cr1Write env s 0x00000000
  let s := cr2Write s 0x00000000
  let s := cr3Write build env s 0x00000000
  .ok (updateIrq s)

/-- The bits that an access of `size` bytes at `offset` covers in its register. -/
def lane (offset size : ℕ) : ℕ × ℕ := (offset % 4 * 8, size * 8)

/-- `stm32_uart_read`. -/
def read (s : Stm32Uart) (offset size : ℕ) : Except Fault (BitVec 64 × Stm32Uart) :=
  let (start, length) := lane offset size
  match offset / 4 * 4 with
  | 0x00 => .ok (extract64 (s.srRead.1.setWidth 64) start length, s.srRead.2)
  | 0x04 => do
    let (value, s) ← s.drRead
    .ok (extract64 (value.setWidth 64) start length, s)
  | 0x08 => .ok (extract64 (s.BRR.setWidth 64) start length, s)
  | 0x0c => .ok (extract64 (s.CR1.setWidth 64) start length, s)
  | 0x10 => .ok (extract64 (s.CR2.setWidth 64) start length, s)
  | 0x14 => .ok (extract64 (s.CR3.setWidth 64) start length, s)
  | _ => .ok (0, s)

/-- The new value of a register with value `old`. -/
def laneValue (old : BitVec 32) (offset : ℕ) (value : BitVec 64) (size : ℕ) : BitVec 32 :=
  (deposit64 (old.setWidth 64) (lane offset size).1 (lane offset size).2 value).setWidth 32

/-- `stm32_uart_write`. -/
def write (s : Stm32Uart) (offset : ℕ) (value : BitVec 64) (size : ℕ) : Except Fault Stm32Uart :=
  match offset / 4 * 4 with
  | 0x00 => s.srRead.2.srWrite (laneValue s.srRead.1 offset value size)
  | 0x04 => drWrite build env s (laneValue 0 offset value size)
  | 0x08 => brrWrite env s (laneValue s.BRR offset value size)
  | 0x0c => cr1Write env s (laneValue s.CR1 offset value size)
  | 0x10 => .ok (cr2Write s (laneValue s.CR2 offset value size))
  | 0x14 => .ok (cr3Write build env s (laneValue s.CR3 offset value size))
  | _ => .ok s

/-- `stm32_uart_connect`. -/
def connect (s : Stm32Uart) (chr : Bool) (afioBoardMap : BitVec 32) : Stm32Uart :=
  { s with chr, afioBoardMap }

/-! ## The device -/

/-- What can happen to the device. -/
inductive Op where
  | read (offset size : ℕ)
  | write (offset : ℕ) (value : BitVec 64) (size : ℕ)
  | receive (buf : List (BitVec 8))
  | rxTimer
  | txTimer
  | txDmaTimer
  | clkIrq (level : Bool)
  | reset

/-- An operation, with the other devices as they are at that moment.  A timer that
    does not run does not expire. -/
def step (s : Stm32Uart) (o : UartEnv × Op) : Except Fault Stm32Uart :=
  match o.2 with
  | .read offset size => do
    let (_, s) ← s.read offset size
    .ok s
  | .write offset value size => s.write build o.1 offset value size
  | .receive buf => s.receive build o.1 buf
  | .rxTimer => .ok (if s.rxTimer.isSome then rxTimerExpire o.1 { s with rxTimer := none } else s)
  | .txTimer => .ok (if s.txTimer.isSome then txComplete build o.1 { s with txTimer := none } else s)
  | .txDmaTimer =>
    .ok (if s.txDmaTimer.isSome then txDmaTimerExpire build o.1 { s with txDmaTimer := none } else s)
  | .clkIrq level => clkIrqHandler o.1 s 0 level
  | .reset => s.reset build o.1

/-- The device as the board makes it: initialized, connected to a character device
    if `chr`, and reset with the machine. -/
def start (periph : Periph) (chr : Bool) (afioBoardMap : BitVec 32) : Except Fault Stm32Uart := do
  let s ← (init periph).reset build env
  (s.connect chr afioBoardMap).reset build env

/-! ## The transmitter and the receiver

`tx` and `rx` are what the two directions work with.  Below, what each operation
of the shipped build does to them. -/

structure Tx where
  chr : Bool
  TXE : Bool
  TC : Bool
  txTimer : Option (BitVec 64)
  txDmaTimer : Option (BitVec 64)
  sent : List (BitVec 8)

structure Rx where
  UE : Bool
  RE : Bool
  RXNE : Bool
  ORE : Bool
  RDR : BitVec 32

def tx (s : Stm32Uart) : Tx := ⟨s.chr, s.SR_TXE, s.SR_TC, s.txTimer, s.txDmaTimer, s.sent⟩

def rx (s : Stm32Uart) : Rx := ⟨s.CR1_UE, s.CR1_RE, s.SR_RXNE, s.SR_ORE, s.RDR⟩

variable {env} {s t : Stm32Uart} {v : BitVec 32}

@[simp] theorem updateIrq_tx (s : Stm32Uart) : s.updateIrq.tx = s.tx := by
  obtain ⟨_, _, h⟩ := s.updateIrq_eq; rw [h]; rfl

@[simp] theorem updateIrq_rx (s : Stm32Uart) : s.updateIrq.rx = s.rx := by
  obtain ⟨_, _, h⟩ := s.updateIrq_eq; rw [h]; rfl

/-- Without a delay, a transmission that finds the buffer empty is complete at once. -/
theorem startTx_shipped (hs : s.SR_TXE = true) (v : BitVec 32) :
    startTx .shipped env s v =
      updateIrq { s with SR_TC := true, sent := if s.chr then s.sent ++ [v.setWidth 8] else s.sent } := by
  rw [startTx, if_pos (show UartBuild.shipped.noBaudDelay = true from rfl), txComplete, if_pos hs]

theorem srRead_parts (s : Stm32Uart) : s.srRead.2.tx = s.tx ∧ s.srRead.2.rx = s.rx := by
  unfold srRead; dsimp only; split <;> exact ⟨rfl, rfl⟩

theorem srWrite_parts (h : s.srWrite v = .ok t) :
    t.tx = { s.tx with TC := false } ∧ t.rx = { s.rx with RXNE := false } := by
  unfold srWrite at h
  dsimp only at h
  split_ifs at h with hTC hRXNE
  cases h
  simp only [ne_eq, not_not] at hTC hRXNE
  rw [updateIrq_tx, updateIrq_rx, hTC, hRXNE]
  exact ⟨rfl, rfl⟩

theorem clearOre_parts (s : Stm32Uart) : s.clearOre.tx = s.tx ∧
    s.clearOre.rx = { s.rx with ORE := s.SR_ORE && !s.srReadSinceOreSet } := by
  unfold clearOre
  split
  · next h =>
    simp only [Bool.and_eq_true] at h
    rw [h.1, h.2]; exact ⟨rfl, rfl⟩
  · next h =>
    refine ⟨rfl, ?_⟩
    have hORE : s.SR_ORE = (s.SR_ORE && !s.srReadSinceOreSet) := by
      cases hO : s.SR_ORE <;> simp_all
    rw [← hORE]; rfl

/-- A read of `DR` needs a byte, and takes it. -/
theorem drRead_parts (h : s.drRead = .ok (v, t)) :
    s.SR_RXNE = true ∧ v = s.RDR ∧ t.tx = s.tx ∧
      t.rx = { s.rx with RXNE := false, ORE := s.SR_ORE && !s.srReadSinceOreSet } := by
  obtain ⟨htx, hrx⟩ := s.clearOre_parts
  unfold drRead at h
  dsimp only at h
  split_ifs at h with _ _ hRXNE
  cases h
  refine ⟨(congrArg Rx.RXNE hrx).symm.trans hRXNE, congrArg Rx.RDR hrx, ?_, ?_⟩
  · rw [updateIrq_tx]; exact htx
  · rw [updateIrq_rx]
    exact congrArg (fun r : Rx => { r with RXNE := false }) hrx

/-- A write to `DR` starts a transmission, or leaves the byte in the buffer. -/
theorem drWrite_cases (h : drWrite build env s v = .ok t) :
    (s.SR_TC = true ∧ t = updateIrq (startTx build env s (v &&& 0x000001ff))) ∨
    (s.SR_TC = false ∧ s.SR_TXE = true ∧
      t = updateIrq { s with TDR := v &&& 0x000001ff, SR_TXE := false }) := by
  unfold drWrite at h
  dsimp only at h
  by_cases hUE : (!s.CR1_UE) = true
  · rw [if_pos hUE] at h; cases h
  rw [if_neg hUE] at h
  by_cases hTE : (!s.CR1_TE) = true
  · rw [if_pos hTE] at h; cases h
  rw [if_neg hTE] at h
  obtain ⟨-, -, h⟩ := Machine.bind_eq_ok.1 h
  split_ifs at h with hTC hTXE
  · cases h; exact Or.inl ⟨hTC, rfl⟩
  · cases h; exact Or.inr ⟨by simpa using hTC, hTXE, rfl⟩

/-- Only the baud rate changes. -/
theorem baudUpdate_eq (h : baudUpdate env s = .ok t) :
    ∃ bits ns, t = { s with bitsPerSec := bits, nsPerChar := ns } := by
  obtain ⟨f, -, h⟩ := Machine.bind_eq_ok.1 h
  split_ifs at h
  · cases h; exact ⟨_, _, rfl⟩
  · dsimp only at h
    split_ifs at h
    cases h; exact ⟨_, _, rfl⟩

theorem baudUpdate_parts (h : baudUpdate env s = .ok t) : t.tx = s.tx ∧ t.rx = s.rx := by
  obtain ⟨_, _, rfl⟩ := baudUpdate_eq h; exact ⟨rfl, rfl⟩

theorem brrWrite_parts (h : brrWrite env s v = .ok t) : t.tx = s.tx ∧ t.rx = s.rx := by
  obtain ⟨htx, hrx⟩ := baudUpdate_parts h
  exact ⟨htx, hrx⟩

theorem cr1Write_parts (h : cr1Write env s v = .ok t) : t.tx = s.tx ∧
    t.rx = { s.rx with UE := extract32 v 13 1 != 0, RE := extract32 v 2 1 != 0 } := by
  unfold cr1Write at h
  obtain ⟨-, -, h⟩ := Machine.bind_eq_ok.1 h
  cases h
  exact ⟨updateIrq_tx _, updateIrq_rx _⟩

theorem cr3Write_parts (env : UartEnv) (s : Stm32Uart) (v : BitVec 32) :
    (cr3Write .shipped env s v).tx = s.tx ∧ (cr3Write .shipped env s v).rx = s.rx := by
  unfold cr3Write; dsimp only; split <;> exact ⟨rfl, rfl⟩

theorem reset_parts (h : reset .shipped env s = .ok t) :
    t.tx = { s.tx with TXE := true, TC := true } ∧ t.rx = ⟨false, false, false, false, s.RDR⟩ := by
  unfold reset at h
  obtain ⟨s₁, h₁, h⟩ := Machine.bind_eq_ok.1 h
  obtain ⟨s₂, h₂, h⟩ := Machine.bind_eq_ok.1 h
  cases h
  obtain ⟨htx₁, hrx₁⟩ := brrWrite_parts h₁
  obtain ⟨htx₂, hrx₂⟩ := cr1Write_parts h₂
  obtain ⟨htx₃, hrx₃⟩ := cr3Write_parts env (cr2Write s₂ 0) 0
  rw [updateIrq_tx, updateIrq_rx, htx₃, hrx₃]
  exact ⟨htx₂.trans htx₁, hrx₂.trans (by rw [hrx₁]; rfl)⟩

theorem accept_parts (s : Stm32Uart) (b : BitVec 8) : (s.accept b).tx = s.tx ∧ (s.accept b).rx =
    if s.CR1_UE && s.CR1_RE then
      { s.rx with RDR := b.setWidth 32, RXNE := true, ORE := s.SR_ORE || s.SR_RXNE }
    else s.rx := by
  unfold accept
  split
  · dsimp only
    rw [updateIrq_tx, updateIrq_rx]
    split
    · next hRXNE =>
      obtain ⟨_, _, hirq⟩ := updateIrq_eq { s with SR_ORE := true, srReadSinceOreSet := false }
      rw [hirq, hRXNE, Bool.or_true]; exact ⟨rfl, rfl⟩
    · next hRXNE =>
      rw [Bool.not_eq_true] at hRXNE
      rw [hRXNE, Bool.or_false]; exact ⟨rfl, rfl⟩
  · exact ⟨rfl, rfl⟩

theorem receive_parts {buf : List (BitVec 8)} (h : receive build env s buf = .ok t) :
    ∃ b l, buf = b :: l ∧ t.tx = s.tx ∧ t.rx =
      if s.CR1_UE && s.CR1_RE then
        { s.rx with RDR := b.setWidth 32, RXNE := true, ORE := s.SR_ORE || s.SR_RXNE }
      else s.rx := by
  cases buf with
  | nil => cases h
  | cons b l =>
    refine ⟨b, l, rfl, ?_⟩
    obtain ⟨htx, hrx⟩ := accept_parts s b
    unfold receive at h
    dsimp only at h
    split_ifs at h <;> (cases h; exact ⟨htx, hrx⟩)

/-- Transmission changes its two flags, its timer, the bytes handed over and the
    interrupt. -/
def Sends (s t : Stm32Uart) : Prop :=
  ∃ txe tc timer sent irq level, t = { s with
    SR_TXE := txe, SR_TC := tc, txTimer := timer, sent := sent, irq := irq, currIrqLevel := level }

theorem updateIrq_sends (s : Stm32Uart) (txe tc : Bool) (sent : List (BitVec 8)) :
    Sends s (updateIrq { s with SR_TXE := txe, SR_TC := tc, sent := sent }) := by
  obtain ⟨_, _, h⟩ := updateIrq_eq { s with SR_TXE := txe, SR_TC := tc, sent := sent }
  exact ⟨_, _, _, _, _, _, h⟩

theorem Sends.trans {u : Stm32Uart} (h : Sends s t) (h' : Sends t u) : Sends s u := by
  obtain ⟨_, _, _, _, _, _, rfl⟩ := h
  obtain ⟨_, _, _, _, _, _, rfl⟩ := h'
  exact ⟨_, _, _, _, _, _, rfl⟩

theorem startTx_sends_of (h : ∀ s' : Stm32Uart, s'.SR_TXE = s.SR_TXE → Sends s' (txComplete build env s'))
    (v : BitVec 32) : Sends s (startTx build env s v) := by
  rw [startTx]; dsimp only
  split
  · refine Sends.trans ⟨s.SR_TXE, _, _, _, _, _, rfl⟩ (h _ rfl)
  · exact ⟨_, _, _, _, _, _, rfl⟩

theorem txComplete_sends (s : Stm32Uart) : Sends s (txComplete build env s) := by
  rw [txComplete]
  split
  · exact updateIrq_sends s _ _ _
  -- the pending byte goes out with an empty buffer behind it
  · refine (updateIrq_sends s true s.SR_TC s.sent).trans (startTx_sends_of build ?_ _)
    intro s' hs'
    rw [txComplete, if_pos (by simpa using hs')]
    exact updateIrq_sends s' _ _ _

theorem startTx_sends (s : Stm32Uart) (v : BitVec 32) : Sends s (startTx build env s v) :=
  startTx_sends_of build (fun s' _ => txComplete_sends build s') v

theorem Sends.rx (h : Sends s t) : t.rx = s.rx := by
  obtain ⟨_, _, _, _, _, _, rfl⟩ := h; rfl

theorem txComplete_rx (s : Stm32Uart) : (txComplete build env s).rx = s.rx :=
  (txComplete_sends build s).rx

theorem drWrite_rx (h : drWrite build env s v = .ok t) : t.rx = s.rx := by
  rcases drWrite_cases build h with ⟨-, rfl⟩ | ⟨-, -, rfl⟩
  · rw [updateIrq_rx]; exact (startTx_sends build s _).rx
  · exact updateIrq_rx _

theorem txDmaTimerExpire_rx (s : Stm32Uart) : (txDmaTimerExpire build env s).rx = s.rx := by
  unfold txDmaTimerExpire
  split
  · exact txComplete_rx build { s with dmaIrq := _ }
  · rfl

/-- A read changes nothing, or takes the byte from `DR`. -/
theorem read_parts {offset size : ℕ} {value : BitVec 64} (h : s.read offset size = .ok (value, t)) :
    t.tx = s.tx ∧ (offset / 4 * 4 = 4 ∧ (∃ v, s.drRead = .ok (v, t) ∧
      value = extract64 (v.setWidth 64) (offset % 4 * 8) (size * 8)) ∨
    offset / 4 * 4 ≠ 4 ∧ t.rx = s.rx) := by
  unfold read at h
  dsimp only [lane] at h
  split at h
  case h_1 ho => cases h; exact ⟨s.srRead_parts.1, Or.inr ⟨by omega, s.srRead_parts.2⟩⟩
  case h_2 ho =>
    obtain ⟨⟨v, t'⟩, hv, h⟩ := Machine.bind_eq_ok.1 h
    cases h
    exact ⟨(drRead_parts hv).2.2.1, Or.inl ⟨ho, v, hv, rfl⟩⟩
  case h_7 _ hDR _ _ _ _ => cases h; exact ⟨rfl, Or.inr ⟨hDR, rfl⟩⟩
  all_goals next ho => cases h; exact ⟨rfl, Or.inr ⟨by omega, rfl⟩⟩

/-- A write clears flags through `SR`, hands a byte to the transmitter through `DR`,
    or at most enables or disables. -/
theorem write_parts {offset size : ℕ} {value : BitVec 64}
    (h : write .shipped env s offset value size = .ok t) :
    (offset / 4 * 4 = 0 ∧ t.tx = { s.tx with TC := false } ∧ t.rx = { s.rx with RXNE := false }) ∨
    (offset / 4 * 4 = 4 ∧ drWrite .shipped env s (laneValue 0 offset value size) = .ok t) ∨
    (offset / 4 * 4 ≠ 0 ∧ offset / 4 * 4 ≠ 4 ∧ t.tx = s.tx ∧
      ∃ ue re, t.rx = { s.rx with UE := ue, RE := re }) := by
  unfold write at h
  split at h
  case h_1 ho =>
    obtain ⟨htx, hrx⟩ := srWrite_parts h
    rw [s.srRead_parts.1] at htx
    rw [s.srRead_parts.2] at hrx
    exact Or.inl ⟨ho, htx, hrx⟩
  case h_2 ho => exact Or.inr (Or.inl ⟨ho, h⟩)
  case h_3 ho =>
    obtain ⟨htx, hrx⟩ := brrWrite_parts h
    exact Or.inr (Or.inr ⟨by omega, by omega, htx, s.CR1_UE, s.CR1_RE, hrx⟩)
  case h_4 ho =>
    obtain ⟨htx, hrx⟩ := cr1Write_parts h
    exact Or.inr (Or.inr ⟨by omega, by omega, htx, _, _, hrx⟩)
  case h_5 ho => cases h; exact Or.inr (Or.inr ⟨by omega, by omega, rfl, s.CR1_UE, s.CR1_RE, rfl⟩)
  case h_6 ho =>
    cases h
    obtain ⟨htx, hrx⟩ := cr3Write_parts env s (laneValue s.CR3 offset value size)
    exact Or.inr (Or.inr ⟨by omega, by omega, htx, s.CR1_UE, s.CR1_RE, hrx⟩)
  case h_7 hSR hDR _ _ _ _ =>
    cases h; exact Or.inr (Or.inr ⟨hSR, hDR, rfl, s.CR1_UE, s.CR1_RE, rfl⟩)

theorem clkIrqHandler_parts {n : ℕ} {level : Bool} (h : clkIrqHandler env s n level = .ok t) :
    t.tx = s.tx ∧ t.rx = s.rx := by
  unfold clkIrqHandler at h
  obtain ⟨-, h⟩ := assert_bind.1 h
  split at h
  · exact baudUpdate_parts h
  · cases h; exact ⟨rfl, rfl⟩

/-- A device as the board makes it has nothing to send and nothing received. -/
theorem start_parts {periph : Periph} {chr : Bool} {map : BitVec 32}
    (h : start .shipped env periph chr map = .ok s) :
    s.tx = ⟨chr, true, true, none, none, []⟩ ∧ s.rx = ⟨false, false, false, false, 0⟩ := by
  obtain ⟨s₁, h₁, h⟩ := Machine.bind_eq_ok.1 h
  obtain ⟨htx₁, hrx₁⟩ := reset_parts h₁
  obtain ⟨htx, hrx⟩ := reset_parts h
  refine ⟨htx.trans ?_, hrx.trans ?_⟩
  · have hconn : (s₁.connect chr map).tx = { s₁.tx with chr } := rfl
    rw [hconn, htx₁]; rfl
  · have hRDR : (s₁.connect chr map).RDR = s₁.rx.RDR := rfl
    rw [hRDR, hrx₁]; rfl

/-! ## `UART1` in use -/

/-- The devices around `UART1` when it can be used: nothing is remapped, and `PA9`
    is an alternate function output. -/
def readyEnv (rcc : Stm32Rcc) : UartEnv where
  rcc := rcc
  afio := .init
  gpio _ := { Stm32Gpio.init with CRH := 0x000000b0 }
  now := 0

/-- `UART1` as the board makes it. -/
def idle : Stm32Uart := { init .UART1 with chr := true, SR_TXE := true, SR_TC := true }

/-- `UART1` with transmitter and receiver enabled. -/
def enabled : Stm32Uart :=
  { idle with CR1 := 0x200c, CR1_UE := true, CR1_TE := true, CR1_RE := true }

theorem start_idle (env : UartEnv) : start .shipped env .UART1 true 0 = .ok idle := by
  with_unfolding_all rfl

theorem step_enabled (rcc : Stm32Rcc) :
    step .shipped idle (readyEnv rcc, .write 0x0c 0x200c 4) = .ok enabled := rfl

theorem checkTxPin_ready (rcc : Stm32Rcc) (hp : s.periph = .UART1) :
    checkTxPin (readyEnv rcc) s = .ok () := by
  have hpin : txPin s.periph (readyEnv rcc).afio = .ok (0, 9) := by rw [hp]; rfl
  have hmode : ((readyEnv rcc).gpio 0).getModeBits 9 = 3 := by
    show Stm32Gpio.getModeBits { Stm32Gpio.init with CRH := 0x000000b0 } 9 = 3
    decide
  have hconfig : ((readyEnv rcc).gpio 0).getConfigBits 9 = 2 := by
    show Stm32Gpio.getConfigBits { Stm32Gpio.init with CRH := 0x000000b0 } 9 = 2
    decide
  simp [checkTxPin, hpin, hmode, hconfig]

theorem drWrite_ready (rcc : Stm32Rcc) (v : BitVec 32) (hp : s.periph = .UART1)
    (hUE : s.CR1_UE = true) (hTE : s.CR1_TE = true) (hTXE : s.SR_TXE = true) :
    ∃ t, drWrite .shipped (readyEnv rcc) s v = .ok t := by
  simp only [drWrite, hUE, hTE, hTXE, checkTxPin_ready rcc hp]
  cases s.SR_TC
  · exact ⟨_, rfl⟩
  · exact ⟨_, rfl⟩

end Stm32Uart

end Bluepill
