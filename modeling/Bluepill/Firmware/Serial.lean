/-
  The serial line of the firmware (`common/stm32_f103.c`, and the functions of
  `stm32f10x_usart.c` that it uses), on the emulated `UART1`.

  The registers of the UART are of 16 bits for the library.  Between two accesses of the firmware
  the host may send a byte, when the UART can receive one, timers may expire, and time goes by;
  the other devices stay as they are.  `delivered` are the bytes that the host has sent to the
  enabled receiver; others are lost.

  While the firmware uses the UART (`Usable`), `Out c x` is the state after the bytes `c` have
  been read and the bytes `x` sent; the environment keeps it.  `sendByte_triple` and the lemmas
  after it say what the functions do to it.
-/
import Bluepill.Lib.Program
import Bluepill.Uart

namespace Bluepill

open Machine Program

/-- An access to a register of the UART. -/
inductive UsartAccess where
  | read (offset size : ℕ)
  | write (offset : ℕ) (value : BitVec 64) (size : ℕ)

/-- What the host and the emulator do. -/
inductive HostOp where
  | byte (b : BitVec 8)
  | rxTimer
  | txTimer
  | txDmaTimer
  | time (now : BitVec 64)

/-- The UART, the time, and what the host has sent. -/
structure Serial where
  uart : Stm32Uart
  now : BitVec 64
  delivered : List (BitVec 8)

namespace Serial

variable (around : UartEnv) (s : Serial)

/-- The other devices, at the time of the state. -/
def env : UartEnv := { around with now := s.now }

/-- An access of the firmware. -/
def exec : UsartAccess → Except Fault (BitVec 64 × Serial)
  | .read offset size => do
    let (v, uart) ← s.uart.read offset size
    .ok (v, { s with uart })
  | .write offset value size => do
    let uart ← s.uart.write .shipped (s.env around) offset value size
    .ok (0, { s with uart })

/-- A byte of the host waits until the UART can receive it. -/
def host : HostOp → Except Fault Serial
  | .byte b =>
    if s.uart.canReceive .shipped then do
      let uart ← s.uart.receive .shipped (s.env around) [b]
      let delivered := if s.uart.CR1_UE && s.uart.CR1_RE then s.delivered ++ [b] else s.delivered
      .ok { s with uart, delivered }
    else .ok s
  | .rxTimer => do
    let uart ← s.uart.step .shipped (s.env around, .rxTimer)
    .ok { s with uart }
  | .txTimer => do
    let uart ← s.uart.step .shipped (s.env around, .txTimer)
    .ok { s with uart }
  | .txDmaTimer => do
    let uart ← s.uart.step .shipped (s.env around, .txDmaTimer)
    .ok { s with uart }
  | .time now => .ok { s with now }

end Serial

/-! ## The functions of the firmware -/

namespace Firmware

open Prog

abbrev Fw (α : Type) := Prog UsartAccess (BitVec 64) α

def USART_FLAG_RXNE : BitVec 16 := 0x0020
def USART_FLAG_TXE : BitVec 16 := 0x0080

/-- `USART_GetFlagStatus`, of a value of `SR`. -/
def flagStatus (flag : BitVec 16) (sr : BitVec 64) : Bool := sr.setWidth 16 &&& flag != 0

/-- `while(USART_GetFlagStatus(USART1, flag) == RESET);`. -/
def waitFlag (flag : BitVec 16) : Fw Unit := do
  let _ ← poll (.read 0x00 2) (flagStatus flag)

/-- `USART_SendData`. -/
def usartSendData (data : BitVec 16) : Fw Unit := do
  let _ ← request (.write 0x04 ((data &&& 0x01ff).setWidth 64) 2)

/-- `USART_ReceiveData`. -/
def usartReceiveData : Fw (BitVec 16) := do
  let dr ← request (.read 0x04 2)
  return dr.setWidth 16 &&& 0x01ff

/-- `send_byte`. -/
def sendByte (b : BitVec 8) : Fw Unit := do
  waitFlag USART_FLAG_TXE
  usartSendData (b.setWidth 16)

/-- `send_byte(b); …`. -/
def sendBytes : List (BitVec 8) → Fw Unit
  | [] => return
  | b :: bs => do
    sendByte b
    sendBytes bs

end Firmware

open Firmware

/-! ## What the accesses do -/

namespace Stm32Uart

/-- The byte that has been received and not read. -/
def waiting (s : Stm32Uart) : List (BitVec 8) := if s.SR_RXNE then [s.RDR.setWidth 8] else []

/-- What the firmware has set up, and what a transmission or an overrun changes. -/
structure Port where
  periph : Periph
  chr : Bool
  map : BitVec 32
  bitsPerSec : BitVec 32
  BRR : BitVec 32
  CR1 : BitVec 32
  UE : Bool
  TE : Bool
  RE : Bool
  TXE : Bool
  TC : Bool
  ORE : Bool
  receiving : Bool

def port (s : Stm32Uart) : Port :=
  ⟨s.periph, s.chr, s.afioBoardMap, s.bitsPerSec, s.BRR, s.CR1, s.CR1_UE, s.CR1_TE, s.CR1_RE, s.SR_TXE, s.SR_TC, s.SR_ORE,
    s.receiving⟩

/-- The UART is connected to its pins and to the outside, and neither a transmission nor an overrun is under
    way. -/
structure Attached (around : UartEnv) (s : Stm32Uart) : Prop where
  pin : checkTxPin around s = .ok ()
  map : around.afio.getPeriphMap s.periph = .ok s.afioBoardMap
  chr : s.chr = true
  CR1_UE : s.CR1_UE = s.CR1.getLsbD 13
  CR1_TE : s.CR1_TE = s.CR1.getLsbD 3
  CR1_RE : s.CR1_RE = s.CR1.getLsbD 2
  TXE : s.SR_TXE = true
  TC : s.SR_TC = true
  ORE : s.SR_ORE = false
  receiving : s.receiving = false

/-- Transmitter and receiver are enabled. -/
structure Usable (around : UartEnv) (s : Stm32Uart) : Prop extends Attached around s where
  UE : s.CR1_UE = true
  TE : s.CR1_TE = true
  RE : s.CR1_RE = true

variable {around : UartEnv} {s t : Stm32Uart}

@[simp] theorem updateIrq_port (s : Stm32Uart) : s.updateIrq.port = s.port := by
  obtain ⟨_, _, h⟩ := s.updateIrq_eq
  rw [h]
  rfl

@[simp] theorem updateIrq_sent (s : Stm32Uart) : s.updateIrq.sent = s.sent := by
  obtain ⟨_, _, h⟩ := s.updateIrq_eq
  rw [h]

@[simp] theorem updateIrq_waiting (s : Stm32Uart) : s.updateIrq.waiting = s.waiting := by
  obtain ⟨_, _, h⟩ := s.updateIrq_eq
  rw [h]
  rfl

theorem Attached.of_port (h : Attached around s) (hp : t.port = s.port) : Attached around t := by
  have hperiph : t.periph = s.periph := congrArg Port.periph hp
  have hmap : t.afioBoardMap = s.afioBoardMap := congrArg Port.map hp
  have hCR1 : t.CR1 = s.CR1 := congrArg Port.CR1 hp
  refine ⟨?_, ?_, (congrArg Port.chr hp).trans h.chr, ?_, ?_, ?_, (congrArg Port.TXE hp).trans h.TXE,
    (congrArg Port.TC hp).trans h.TC, (congrArg Port.ORE hp).trans h.ORE, (congrArg Port.receiving hp).trans h.receiving⟩
  · rw [← h.pin]
    unfold checkTxPin
    rw [hperiph]
  · rw [hperiph, hmap]
    exact h.map
  · rw [hCR1]
    exact (congrArg Port.UE hp).trans h.CR1_UE
  · rw [hCR1]
    exact (congrArg Port.TE hp).trans h.CR1_TE
  · rw [hCR1]
    exact (congrArg Port.RE hp).trans h.CR1_RE

theorem Usable.of_port (h : Usable around s) (hp : t.port = s.port) : Usable around t :=
  ⟨h.toAttached.of_port hp, (congrArg Port.UE hp).trans h.UE, (congrArg Port.TE hp).trans h.TE,
    (congrArg Port.RE hp).trans h.RE⟩

/-- A read of `SR`. -/
theorem Usable.read_sr (h : Usable around s) : ∃ v, s.read 0x00 2 = .ok (v, s) ∧
    flagStatus USART_FLAG_TXE v = true ∧ flagStatus USART_FLAG_RXNE v = s.SR_RXNE := by
  have hsr : s.srRead = (flag true <<< 7 ||| flag true <<< 6 ||| flag s.SR_RXNE <<< 5 ||| flag false <<< 3, s) := by
    unfold srRead
    simp [h.ORE, h.TXE, h.TC]
  refine ⟨extract64 (s.srRead.1.setWidth 64) 0 16, ?_, ?_, ?_⟩
  · show Except.ok (_, s.srRead.2) = _
    rw [hsr]
  · rw [hsr]
    dsimp only
    cases s.SR_RXNE <;> decide
  · rw [hsr]
    dsimp only
    cases s.SR_RXNE <;> decide

theorem laneValue_byte : ∀ b : BitVec 8,
    (laneValue 0 0x04 ((b.setWidth 16 &&& 0x01ff).setWidth 64) 2 &&& 0x000001ff).setWidth 8 = b := by
  decide +kernel

/-- A write to `DR` sends the byte at once. -/
theorem Usable.write_dr (h : Usable around s) (now : BitVec 64) (b : BitVec 8) : ∃ t,
    s.write .shipped { around with now } 0x04 ((b.setWidth 16 &&& 0x01ff).setWidth 64) 2 = .ok t ∧
      t.port = s.port ∧ t.sent = s.sent ++ [b] ∧ t.waiting = s.waiting := by
  have hpin : checkTxPin { around with now } s = .ok () := h.pin
  obtain ⟨v, hv⟩ : ∃ v, v = laneValue 0 0x04 ((b.setWidth 16 &&& 0x01ff).setWidth 64) 2 := ⟨_, rfl⟩
  have hb : (v &&& 0x000001ff).setWidth 8 = b := by
    rw [hv]
    exact laneValue_byte b
  have hwrite : s.write .shipped { around with now } 0x04 ((b.setWidth 16 &&& 0x01ff).setWidth 64) 2 =
      drWrite .shipped { around with now } s v := by
    rw [hv]
    rfl
  have hdr : drWrite .shipped { around with now } s v =
      .ok (startTx .shipped { around with now } s (v &&& 0x000001ff)).updateIrq := by
    simp [drWrite, h.UE, h.TE, h.TC, hpin]
  refine ⟨Stm32Uart.updateIrq (Stm32Uart.updateIrq { s with SR_TC := true, sent := s.sent ++ [b] }), ?_, ?_, ?_, ?_⟩
  · rw [hwrite, hdr, startTx_shipped h.TXE, if_pos h.chr, hb]
  · rw [updateIrq_port, updateIrq_port, port, port, h.TC]
  · rw [updateIrq_sent, updateIrq_sent]
  · rw [updateIrq_waiting, updateIrq_waiting]
    rfl

/-- A read of `DR` takes the byte that waits. -/
theorem Usable.read_dr {b : BitVec 8} (h : Usable around s) (hb : s.waiting = [b]) : ∃ v t,
    s.read 0x04 2 = .ok (v, t) ∧ v.setWidth 8 = b ∧ t.port = s.port ∧ t.sent = s.sent ∧ t.waiting = [] := by
  have hRXNE : s.SR_RXNE = true := by
    by_contra hno
    simp [waiting, hno] at hb
  have hRDR : s.RDR.setWidth 8 = b := by simpa [waiting, hRXNE] using hb
  have hdr : s.drRead = .ok (s.RDR, Stm32Uart.updateIrq { s with SR_RXNE := false }) := by
    unfold drRead clearOre
    simp [h.ORE, h.UE, h.RE, hRXNE]
  refine ⟨extract64 (s.RDR.setWidth 64) 0 16, Stm32Uart.updateIrq { s with SR_RXNE := false }, ?_, ?_, ?_, ?_, ?_⟩
  · show (s.drRead >>= fun p => Except.ok (_, p.2)) = _
    rw [hdr]
    rfl
  · rw [← hRDR, extract64, Word.setWidth_extract_zero _ (by decide) (by decide)]
    exact BitVec.setWidth_setWidth_of_le _ (by decide)
  · rw [updateIrq_port]
    rfl
  · rw [updateIrq_sent]
  · rw [updateIrq_waiting]
    rfl

/-- What `receive` does after it has accepted a byte. -/
theorem receive_after (s : Stm32Uart) (env : UartEnv) (b : BitVec 8) : ∃ t, s.receive .shipped env [b] = .ok t ∧
    t.port = (s.accept b).port ∧ t.sent = (s.accept b).sent ∧ t.waiting = (s.accept b).waiting := by
  unfold Stm32Uart.receive
  dsimp only
  split
  · exact ⟨_, rfl, rfl, rfl, rfl⟩
  · exact ⟨_, rfl, rfl, rfl, rfl⟩

/-- A byte that the UART can receive waits to be read; none did before. -/
theorem Usable.receive (h : Usable around s) (hcan : s.canReceive .shipped = true) (env : UartEnv) (b : BitVec 8) :
    s.waiting = [] ∧ ∃ t, s.receive .shipped env [b] = .ok t ∧ t.port = s.port ∧ t.sent = s.sent ∧ t.waiting = [b] := by
  have hRXNE : s.SR_RXNE = false := by
    simpa [canReceive, h.UE, h.RE, h.receiving, UartBuild.shipped] using hcan
  have haccept : s.accept b = Stm32Uart.updateIrq { s with RDR := b.setWidth 32, SR_RXNE := true } := by
    simp [accept, h.UE, h.RE, hRXNE]
  obtain ⟨t, ht, hport, hsent, hwaiting⟩ := s.receive_after env b
  rw [haccept, updateIrq_port] at hport
  rw [haccept, updateIrq_sent] at hsent
  rw [haccept, updateIrq_waiting] at hwaiting
  refine ⟨by simp [waiting, hRXNE], t, ht, hport, hsent, ?_⟩
  rw [hwaiting]
  simp [waiting]

/-- A byte for the disabled UART is lost. -/
theorem receive_disabled (hUE : s.CR1_UE = false) (env : UartEnv) (b : BitVec 8) :
    ∃ t, s.receive .shipped env [b] = .ok t ∧ t.port = s.port ∧ t.sent = s.sent ∧ t.waiting = s.waiting := by
  have haccept : s.accept b = s := by simp [accept, hUE]
  have hafter := s.receive_after env b
  rwa [haccept] at hafter

/-- The end of a transmission, when none is under way. -/
theorem Attached.txComplete (h : Attached around s) (env : UartEnv) :
    (txComplete .shipped env s).port = s.port ∧ (txComplete .shipped env s).sent = s.sent ∧
      (txComplete .shipped env s).waiting = s.waiting := by
  rw [Stm32Uart.txComplete, if_pos h.TXE, updateIrq_port, updateIrq_sent, updateIrq_waiting, port, port, h.TC]
  exact ⟨rfl, rfl, rfl⟩

/-- The ends of the timers of the UART. -/
inductive Expires : Op → Prop
  | rx : Expires .rxTimer
  | tx : Expires .txTimer
  | txDma : Expires .txDmaTimer

/-- A timer that expires changes nothing that the firmware sees. -/
theorem Attached.expires {o : Op} (h : Attached around s) (env : UartEnv) (ho : Expires o) :
    ∃ t, s.step .shipped (env, o) = .ok t ∧ t.port = s.port ∧ t.sent = s.sent ∧ t.waiting = s.waiting := by
  cases ho with
  | rx =>
    refine ⟨_, rfl, ?_⟩
    dsimp only
    split
    · rw [rxTimerExpire, port, port, h.receiving]
      exact ⟨rfl, rfl, rfl⟩
    · exact ⟨rfl, rfl, rfl⟩
  | tx =>
    refine ⟨_, rfl, ?_⟩
    dsimp only
    split
    · exact Attached.txComplete (s := { s with txTimer := none }) (h.of_port rfl) env
    · exact ⟨rfl, rfl, rfl⟩
  | txDma =>
    refine ⟨_, rfl, ?_⟩
    dsimp only [txDmaTimerExpire]
    split
    · split
      · exact Attached.txComplete (s := { s with
            txDmaTimer := none
            dmaIrq := s.dmaIrq ++ [0x00000011, 0x00000000] }) (h.of_port rfl) env
      · exact ⟨rfl, rfl, rfl⟩
    · exact ⟨rfl, rfl, rfl⟩

end Stm32Uart

/-! ## What the functions do -/

/-- The firmware has read the bytes `c` and sent the bytes `x`; if `full`, another byte waits to be read. -/
structure Out (around : UartEnv) (full : Bool) (c x : List (BitVec 8)) (s : Serial) : Prop where
  usable : s.uart.Usable around
  sent : s.uart.sent = x
  delivered : s.delivered = c ++ s.uart.waiting
  waiting : full = true → s.uart.waiting ≠ []

section
variable {around : UartEnv} {full : Bool} {c x : List (BitVec 8)} {s : Serial} {I B : Serial → Prop}

/-- What the end of a timer does not change. -/
theorem Serial.host_expires {F : Serial → Prop} {o : Stm32Uart.Op} (h : s.uart.Attached around)
    (ho : Stm32Uart.Expires o) (hF : ∀ uart, uart.port = s.uart.port → uart.sent = s.uart.sent →
      uart.waiting = s.uart.waiting → F { s with uart }) :
    ∃ t, (s.uart.step .shipped (s.env around, o) >>= fun uart => Except.ok { s with uart }) = .ok t ∧ F t := by
  obtain ⟨uart, hstep, hport, hsent, hwaiting⟩ := h.expires (s.env around) ho
  refine ⟨{ s with uart }, ?_, hF uart hport hsent hwaiting⟩
  rw [hstep]
  rfl

theorem Out.same {uart : Stm32Uart} (h : Out around full c x s) (hport : uart.port = s.uart.port)
    (hsent : uart.sent = s.uart.sent) (hwaiting : uart.waiting = s.uart.waiting) : Out around full c x { s with uart } := by
  refine ⟨h.usable.of_port hport, hsent.trans h.sent, ?_, ?_⟩
  · rw [hwaiting]
    exact h.delivered
  · rw [hwaiting]
    exact h.waiting

/-- The host does not change what the firmware has read and sent, and a byte that waits stays. -/
theorem Out.stable : Stable (Serial.host around) (Out around full c x) := by
  intro s e h
  cases e with
  | byte b =>
    rw [Serial.host]
    split
    case isTrue hcan =>
      obtain ⟨hnone, t, ht, hport, hsent, hwaiting⟩ := h.usable.receive hcan (s.env around) b
      rw [ht, h.usable.UE, h.usable.RE]
      refine ⟨{ s with uart := t, delivered := s.delivered ++ [b] }, rfl, h.usable.of_port hport, hsent.trans h.sent, ?_, ?_⟩
      · rw [h.delivered, hnone, hwaiting, List.append_nil]
      · rw [hwaiting]
        exact fun _ => List.cons_ne_nil b []
    case isFalse => exact ⟨s, rfl, h⟩
  | rxTimer => exact Serial.host_expires h.usable.toAttached .rx fun _ => h.same
  | txTimer => exact Serial.host_expires h.usable.toAttached .tx fun _ => h.same
  | txDmaTimer => exact Serial.host_expires h.usable.toAttached .txDma fun _ => h.same
  | time now => exact ⟨_, rfl, h.usable, h.sent, h.delivered, h.waiting⟩

/-- Waiting until a byte can be sent: it always can. -/
theorem waitTxe_triple (hI : ∀ s, Out around full c x s → I s) :
    Triple (Serial.exec around) (Serial.host around) I B (fun _ => Out around full c x) (Out around full c x)
      (waitFlag USART_FLAG_TXE) := by
  refine (Triple.poll (R := fun _ => Out around full c x) Out.stable hI ?_ (fun _ => Out.stable) fun _ => hI).bind
    fun _ => .ret Out.stable hI fun _ hs => hs
  intro s h
  obtain ⟨v, hread, htxe, -⟩ := h.usable.read_sr
  refine ⟨v, s, ?_, ?_⟩
  · rw [Serial.exec, hread]
    rfl
  · rw [if_pos htxe]
    exact h

/-- Waiting for a byte: the state is that of `B` as long as there is none. -/
theorem waitRxne_triple (hI : ∀ full s, Out around full c x s → I s)
    (hB : ∀ s, Out around false c x s → s.uart.waiting = [] → B s) :
    Triple (Serial.exec around) (Serial.host around) I B (fun _ => Out around true c x) (Out around false c x)
      (waitFlag USART_FLAG_RXNE) := by
  refine (Triple.poll (R := fun _ => Out around true c x) Out.stable (hI false) ?_ (fun _ => Out.stable)
    fun _ => hI true).bind fun _ => .ret Out.stable (hI true) fun _ hs => hs
  intro s h
  obtain ⟨v, hread, -, hrxne⟩ := h.usable.read_sr
  refine ⟨v, s, ?_, ?_⟩
  · rw [Serial.exec, hread]
    rfl
  · rw [hrxne]
    split
    case isTrue hflag => exact { h with waiting := fun _ => by simp [Stm32Uart.waiting, hflag] }
    case isFalse hflag => exact ⟨h, hB s h (by simp [Stm32Uart.waiting, hflag])⟩

theorem usartSendData_triple {b : BitVec 8} (hI : ∀ s, Out around full c x s → I s)
    (hI' : ∀ s, Out around full c (x ++ [b]) s → I s) :
    Triple (Serial.exec around) (Serial.host around) I B (fun _ => Out around full c (x ++ [b])) (Out around full c x)
      (usartSendData (b.setWidth 16)) := by
  refine (Triple.request (R := fun _ => Out around full c (x ++ [b])) Out.stable hI ?_ (fun _ => Out.stable)
    fun _ => hI').bind fun _ => .ret Out.stable hI' fun _ hs => hs
  intro s h
  obtain ⟨t, ht, hport, hsent, hwaiting⟩ := h.usable.write_dr s.now b
  refine ⟨0, { s with uart := t }, ?_, h.usable.of_port hport, ?_, ?_, ?_⟩
  · rw [Serial.exec, Serial.env, ht]
    rfl
  · rw [hsent, h.sent]
  · rw [hwaiting]
    exact h.delivered
  · rw [hwaiting]
    exact h.waiting

/-- **`send_byte`.** -/
theorem sendByte_triple {b : BitVec 8} (hI : ∀ s, Out around full c x s → I s)
    (hI' : ∀ s, Out around full c (x ++ [b]) s → I s) :
    Triple (Serial.exec around) (Serial.host around) I B (fun _ => Out around full c (x ++ [b])) (Out around full c x) (sendByte b) :=
  (waitTxe_triple hI).bind fun _ => usartSendData_triple hI hI'

/-- **Sending one byte after the other**: at each point, the bytes before it have been sent. -/
theorem sendBytes_triple {bs : List (BitVec 8)}
    (hI : ∀ y s, x <+: y → y <+: x ++ bs → Out around full c y s → I s) :
    Triple (Serial.exec around) (Serial.host around) I B (fun _ => Out around full c (x ++ bs)) (Out around full c x)
      (sendBytes bs) := by
  induction bs generalizing x with
  | nil =>
    rw [List.append_nil] at hI ⊢
    exact .ret Out.stable (fun s => hI x s (List.prefix_refl x) (List.prefix_refl x)) fun _ hs => hs
  | cons b bs ih =>
    have hcons : x ++ b :: bs = x ++ [b] ++ bs := by simp
    rw [hcons] at hI ⊢
    refine (sendByte_triple (fun s => hI x s (List.prefix_refl x) ?_) fun s => hI (x ++ [b]) s ?_ ?_).bind fun _ => ih ?_
    · rw [List.append_assoc]
      exact List.prefix_append _ _
    · exact List.prefix_append _ _
    · exact List.prefix_append _ _
    · intro y s hxy
      exact hI y s ((List.prefix_append x [b]).trans hxy)

theorem setWidth_receiveData (v : BitVec 64) : (v.setWidth 16 &&& 0x01ff).setWidth 8 = v.setWidth 8 := by
  have hmask : ∀ i < 8, (0x01ff : BitVec 16).getLsbD i = true := by decide
  refine BitVec.eq_of_getLsbD_eq fun i hi => ?_
  rw [BitVec.getLsbD_setWidth, BitVec.getLsbD_and, hmask i hi, BitVec.getLsbD_setWidth, BitVec.getLsbD_setWidth]
  simp [show i < 16 by omega]

/-- **`USART_ReceiveData`**, when a byte waits. -/
theorem usartReceiveData_triple (hI : ∀ s, Out around true c x s → I s)
    (hI' : ∀ b s, Out around false (c ++ [b]) x s → I s) :
    Triple (Serial.exec around) (Serial.host around) I B (fun v => Out around false (c ++ [v.setWidth 8]) x)
      (Out around true c x) usartReceiveData := by
  refine (Triple.request (R := fun v => Out around false (c ++ [v.setWidth 8]) x) Out.stable hI ?_ (fun _ => Out.stable)
    fun v => hI' (v.setWidth 8)).bind fun v => .ret Out.stable (hI' (v.setWidth 8)) fun s hs => ?_
  · intro s h
    obtain ⟨b, hb⟩ : ∃ b, s.uart.waiting = [b] := by
      have hne := h.waiting rfl
      unfold Stm32Uart.waiting at hne ⊢
      split at hne
      case isTrue hflag => exact ⟨_, if_pos hflag⟩
      case isFalse => exact (hne rfl).elim
    obtain ⟨v, t, hread, hv, hport, hsent, hwaiting⟩ := h.usable.read_dr hb
    refine ⟨v, { s with uart := t }, ?_, h.usable.of_port hport, hsent.trans h.sent, ?_, fun hno => (Bool.false_ne_true hno).elim⟩
    · rw [Serial.exec, hread]
      rfl
    · rw [h.delivered, hb, hv, hwaiting, List.append_nil]
  · rw [setWidth_receiveData]
    exact hs

end

end Bluepill
