/-
  The echo demo (`uart_echo/main.c`).

  For each byte it receives, the demo sends the text `Got:`, the byte with its top bit cleared, and
  the end of a line.  The file has two versions of `main`; the second one also sends `A` before it
  waits for a byte, and `D` when there is one.
-/
import Bluepill.Firmware.Init

namespace Bluepill

open Machine Program Firmware

namespace Firmware

/-- `Got:`. -/
def gotText : List (BitVec 8) := [0x47, 0x6f, 0x74, 0x3a]

/-- `\\r\\n`. -/
def lineEnd : List (BitVec 8) := [0x0d, 0x0a]

/-- The body of the loop of `main`, with the marks that it sends before and after it waits. -/
def echoBody (before after : List (BitVec 8)) : Fw Unit := do
  sendBytes before
  waitFlag USART_FLAG_RXNE
  sendBytes after
  let data ← usartReceiveData
  let b := (data &&& 0x7f).setWidth 8
  sendBytes (gotText ++ [b] ++ lineEnd)

/-- `main` up to the loop, and its first round. -/
def echoMain (apbclock : BitVec 32) (before after : List (BitVec 8)) : Fw Unit := do
  initRs232 apbclock
  usartCmd true
  echoBody before after

/-- What is sent for a byte. -/
def echoReply (before after : List (BitVec 8)) (b : BitVec 8) : List (BitVec 8) :=
  before ++ after ++ (gotText ++ [b &&& 0x7f] ++ lineEnd)

end Firmware

section
variable (around : UartEnv) (before after : List (BitVec 8))

/-- What has been sent is the beginning of the answers to what has been received. -/
def Answering (s : Serial) : Prop := s.uart.sent <+: s.delivered.flatMap (echoReply before after) ++ before

/-- Everything has been answered. -/
def Answered (s : Serial) : Prop := s.uart.sent = s.delivered.flatMap (echoReply before after) ++ before

/-- Where the loop begins, after the bytes `c`. -/
def EchoLoop (c : List (BitVec 8)) : Serial → Prop := Out around false c (c.flatMap (echoReply before after))

end

variable {around : UartEnv} {before after c x y : List (BitVec 8)} {s : Serial}

theorem setWidth_mask (v : BitVec 16) : (v &&& 0x7f).setWidth 8 = v.setWidth 8 &&& 0x7f := by
  have hmask : ∀ i < 8, (0x7f : BitVec 16).getLsbD i = (0x7f : BitVec 8).getLsbD i := by decide
  refine BitVec.eq_of_getLsbD_eq fun i hi => ?_
  rw [BitVec.getLsbD_setWidth, BitVec.getLsbD_and, BitVec.getLsbD_and, hmask i hi, BitVec.getLsbD_setWidth,
    Bool.and_assoc]

/-- A beginning of the answers to some bytes is one of the answers to more bytes. -/
theorem prefix_answers (hy : y <+: c.flatMap (echoReply before after) ++ before ++ after) (b : BitVec 8)
    (bs : List (BitVec 8)) : y <+: (c ++ b :: bs).flatMap (echoReply before after) := by
  refine hy.trans ?_
  rw [List.flatMap_append, List.flatMap_cons, echoReply]
  simp only [List.append_assoc]
  exact List.prefix_append_right_inj _ |>.2 (List.prefix_append_right_inj _ |>.2 (List.prefix_append _ _))

/-- Before a byte has been received, only the first mark can have been sent. -/
theorem Out.answering {full : Bool} (h : Out around full c y s)
    (hy : y <+: c.flatMap (echoReply before after) ++ before) : Answering before after s := by
  unfold Answering
  rw [h.sent, h.delivered]
  cases hw : s.uart.waiting with
  | nil => rwa [List.append_nil]
  | cons b bs =>
    exact (prefix_answers (hy.trans (List.prefix_append _ _)) b bs).trans (List.prefix_append _ _)

/-- When a byte waits, the second mark may have been sent too. -/
theorem Out.answering_waiting (h : Out around true c y s)
    (hy : y <+: c.flatMap (echoReply before after) ++ before ++ after) : Answering before after s := by
  unfold Answering
  rw [h.sent, h.delivered]
  obtain ⟨b, bs, hb⟩ := List.exists_cons_of_ne_nil (h.waiting rfl)
  rw [hb]
  exact (prefix_answers hy b bs).trans (List.prefix_append _ _)

theorem Out.answered (h : Out around false c (c.flatMap (echoReply before after) ++ before) s)
    (hw : s.uart.waiting = []) : Answered before after s := by
  rw [Answered, h.sent, h.delivered, hw, List.append_nil]

theorem flatMap_reply (c : List (BitVec 8)) (b : BitVec 8) : (c ++ [b]).flatMap (echoReply before after) =
    c.flatMap (echoReply before after) ++ before ++ after ++ (gotText ++ [b &&& 0x7f] ++ lineEnd) := by
  simp [echoReply]

/-- **One round of the loop** reads a byte and answers it. -/
theorem echoBody_loops : LoopsTo (Serial.exec around) (Serial.host around) (Answering before after)
    (Answered before after) (fun c c' => c'.length = c.length + 1) (EchoLoop around before after)
    (echoBody before after) := by
  intro c
  unfold EchoLoop
  refine (sendBytes_triple fun y s _ hy h => h.answering hy).bind fun _ => ?_
  refine (waitRxne_triple (fun _ s h => h.answering (List.prefix_refl _)) fun s h => h.answered).bind fun _ => ?_
  refine (sendBytes_triple fun y s _ hy h => h.answering_waiting hy).bind fun _ => ?_
  refine (usartReceiveData_triple (fun s h => h.answering_waiting (List.prefix_refl _)) fun b s h => ?_).bind fun v => ?_
  · refine h.answering ?_
    rw [flatMap_reply]
    exact (List.prefix_append _ _).trans (List.prefix_append _ _)
  · obtain ⟨b, hb⟩ : ∃ b, b = v.setWidth 8 := ⟨_, rfl⟩
    rw [setWidth_mask, ← hb]
    refine (sendBytes_triple fun y s _ hy h => ?_).post fun _ s h => ⟨c ++ [b], List.length_append, ?_⟩
    · refine h.answering (hy.trans ?_)
      rw [flatMap_reply]
      exact List.prefix_append _ _
    · rw [flatMap_reply]
      exact h

theorem exec_delivered {q : UsartAccess} {v : BitVec 64} {t : Serial} (h : s.exec around q = .ok (v, t)) :
    t.delivered = s.delivered := by
  cases q with
  | read offset size =>
    obtain ⟨_, -, h⟩ := bind_eq_ok.1 h
    cases h
    rfl
  | write offset value size =>
    obtain ⟨_, -, h⟩ := bind_eq_ok.1 h
    cases h
    rfl

theorem EchoLoop.le_delivered (h : EchoLoop around before after c s) : c.length ≤ s.delivered.length := by
  rw [h.delivered, List.length_append]
  omega

/-- **The demo answers what it receives**, from the reset of the UART on and however the host and the timers
    come in between: it does not fail, what it has sent is always the beginning of the answers to the bytes that
    were received, in their order, and when it is left alone it sends the rest. -/
theorem echo_replies {around : UartEnv} {apbclock : BitVec 32} {uart : Stm32Uart} (before after : List (BitVec 8))
    (hstart : Stm32Uart.start .shipped around .UART1 true 0 = .ok uart)
    (hpin : Stm32Uart.checkTxPin around uart = .ok ()) (hmap : around.afio.USART1_REMAP = 0)
    (hclk : around.rcc.getPeriphFreq .UART1 = .ok apbclock) (happ : apbclock.toNat ≤ 72000000) (now : BitVec 64)
    (ops : List (Option HostOp)) :
    ∃ c, run (Program.step (Serial.exec around) (Serial.host around) (echoBody before after))
        (⟨uart, now, []⟩, echoMain apbclock before after) ops = .ok c ∧
      c.1.uart.sent <+: c.1.delivered.flatMap (echoReply before after) ++ before ∧
      ∃ k d, alone (Serial.exec around) (Serial.host around) (echoBody before after) k c = .ok d ∧
        d.1.delivered = c.1.delivered ∧
        d.1.uart.sent = c.1.delivered.flatMap (echoReply before after) ++ before := by
  have huart : uart = Stm32Uart.idle := by
    rw [Stm32Uart.start_idle] at hstart
    cases hstart
    rfl
  subst huart
  have hoff := idle_off hpin hmap now
  have hI : ∀ p s, Off around p s → Answering before after s := by
    intro p s h
    unfold Answering
    rw [h.sent]
    exact List.nil_prefix
  have hI' : ∀ s, Out around false [] [] s → Answering before after s := fun s h => h.answering List.nil_prefix
  have hmain : Loops (Serial.exec around) (Serial.host around) (Answering before after) (Answered before after)
      (fun c c' => c'.length = c.length + 1) (EchoLoop around before after)
      (⟨Stm32Uart.idle, now, []⟩, echoMain apbclock before after) := by
    refine ⟨[], _, ?_, hoff⟩
    refine (initRs232_triple happ rfl hclk hI hI').bind fun _ => ?_
    exact (usartCmd_again_triple hI').bind fun _ => echoBody_loops []
  obtain ⟨c, hc, hans, hloops⟩ := hmain.run echoBody_loops ops
  obtain ⟨k, d, hd, -, hall⟩ := hloops.quiet (fun s => s.delivered.length) List.length
    (fun s q v t h => congrArg List.length (exec_delivered h)) (fun i j h => by omega)
    (fun i s h => h.le_delivered) echoBody_loops
  have hsame : d.1.delivered = c.1.delivered := alone_const (fun s q v t h => exec_delivered h) hd
  exact ⟨c, hc, hans, k, d, hd, hsame, hsame ▸ hall⟩

/-- Two bytes come, the first of them before the receiver is enabled. -/
theorem echo_replies_late : ∃ rcc c k d,
    run (Program.step (Serial.exec (Stm32Uart.readyEnv rcc)) (Serial.host (Stm32Uart.readyEnv rcc)) (echoBody [] []))
      (⟨Stm32Uart.idle, 0, []⟩, echoMain 8000000 [] [])
      (some (.byte 0x41) :: List.replicate 16 none ++ [some (.byte 0xc2)]) = .ok c ∧
    alone (Serial.exec (Stm32Uart.readyEnv rcc)) (Serial.host (Stm32Uart.readyEnv rcc)) (echoBody [] []) k c = .ok d ∧
    d.1.uart.sent = c.1.delivered.flatMap (echoReply [] []) := by
  obtain ⟨rcc, hclk⟩ := exists_clocked
  obtain ⟨c, hc, -, k, d, hd, -, hsent⟩ := echo_replies [] [] (Stm32Uart.start_idle (Stm32Uart.readyEnv rcc))
    (Stm32Uart.checkTxPin_ready rcc rfl) rfl hclk (by decide) 0
    (some (.byte 0x41) :: List.replicate 16 none ++ [some (.byte 0xc2)])
  exact ⟨rcc, c, k, d, hc, hd, hsent.trans (List.append_nil _)⟩

end Bluepill
