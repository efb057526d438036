/-
  The baud rate of the UART.

  The rate is computed from `BRR` and the frequency of the peripheral clock
  (`baudUpdate`), and kept until one of them changes: `BRR` by a write or a reset, the
  frequency by an access to the RCC, which the UART learns from a notification.  The
  other operations leave the rate alone (`step_post`).

  So the rate is always the one of `BRR` and of the frequency the clock has now
  (`baud_current`).
-/
import Bluepill.Board
import Bluepill.Uart

namespace Bluepill

open Rcc Machine
open Stm32Rcc (Access)

namespace Stm32Uart

/-- What the baud rate is computed from, and the rate. -/
structure Rate where
  periph : Periph
  BRR : BitVec 32
  bitsPerSec : BitVec 32
  nsPerChar : BitVec 64

def rate (s : Stm32Uart) : Rate := ⟨s.periph, s.BRR, s.bitsPerSec, s.nsPerChar⟩

/-- The rate is the one for `BRR` and the frequency `f`. -/
structure Rate.Right (r : Rate) (f : BitVec 32) : Prop where
  bits : r.bitsPerSec.toNat = if r.BRR = 0 ∨ f = 0 then 0 else f.toNat / r.BRR.toNat
  ns : r.bitsPerSec ≠ 0 → r.nsPerChar.toNat = 10 * (10 ^ 9 / r.bitsPerSec.toNat)

/-- At the frequency `f` the rate can be computed. -/
def Divides (BRR f : BitVec 32) : Prop := BRR = 0 ∨ f = 0 ∨ f / BRR ≠ 0

variable {build : UartBuild} {env : UartEnv} {s t : Stm32Uart} {v f : BitVec 32}

/-- **What `baudUpdate` does**, given the frequency. -/
theorem baudUpdate_post (hf : env.rcc.getPeriphFreq s.periph = .ok f) :
    Post (fun t => t.rate.periph = s.periph ∧ t.rate.BRR = s.BRR ∧ t.rate.Right f)
      (fun e => e = .divByZero ∧ ¬ Divides s.BRR f) (baudUpdate env s) := by
  unfold baudUpdate
  rw [hf, Machine.ok_bind]
  split
  · rename_i h0
    exact ⟨rfl, rfl, (if_pos h0).symm, fun hn => absurd rfl hn⟩
  · rename_i h0
    rw [not_or] at h0
    dsimp only
    split
    · rename_i hbits
      refine ⟨rfl, ?_⟩
      rintro (h | h | h)
      · exact h0.1 h
      · exact h0.2 h
      · exact h hbits
    · refine ⟨rfl, rfl, ?_, fun _ => ?_⟩
      · show (f / s.BRR).toNat = if s.BRR = 0 ∨ f = 0 then 0 else f.toNat / s.BRR.toNat
        rw [if_neg (not_or.2 h0), BitVec.toNat_udiv]
      · -- no overflow: a nanosecond count of ten bits fits
        show (1000000000 / (f / s.BRR).setWidth 64 * 10 : BitVec 64).toNat = _
        have hle : 10 ^ 9 / (f / s.BRR).toNat ≤ 10 ^ 9 := Nat.div_le_self _ _
        have hw : ((f / s.BRR).setWidth 64).toNat = (f / s.BRR).toNat :=
          BitVec.toNat_setWidth_of_le (by decide)
        rw [BitVec.toNat_mul, BitVec.toNat_udiv, hw]
        show 10 ^ 9 / (f / s.BRR).toNat * 10 % 2 ^ 64 = 10 * (10 ^ 9 / (f / s.BRR).toNat)
        omega

/-! ## The other operations -/

/-- The computation leaves the rate `r` alone, and does not divide by zero. -/
def Quiet (r : Rate) : Except Fault Stm32Uart → Prop := Post (·.rate = r) (· ≠ .divByZero)

@[simp] theorem updateIrq_rate (s : Stm32Uart) : s.updateIrq.rate = s.rate := by
  obtain ⟨_, _, h⟩ := s.updateIrq_eq; rw [h]; rfl

theorem Sends.rate (h : Sends s t) : t.rate = s.rate := by
  obtain ⟨_, _, _, _, _, _, rfl⟩ := h; rfl

theorem getPeriphMap_post (a : Stm32Afio) (p : Periph) :
    Post (fun _ => True) (· ≠ Fault.divByZero) (a.getPeriphMap p) := by
  unfold Stm32Afio.getPeriphMap
  split
  · trivial
  · trivial
  · trivial
  · exact Fault.noConfusion

theorem txPin_post (p : Periph) (a : Stm32Afio) :
    Post (fun _ => True) (· ≠ Fault.divByZero) (txPin p a) := by
  unfold txPin
  split
  · refine (getPeriphMap_post a .UART1).bind fun map _ _ => ?_
    split_ifs <;> trivial
  · refine (getPeriphMap_post a .UART2).bind fun map _ _ => ?_
    split_ifs <;> trivial
  · refine (getPeriphMap_post a .UART3).bind fun map _ _ => ?_
    split_ifs <;> trivial
  · exact Fault.noConfusion

theorem checkTxPin_post (s : Stm32Uart) :
    Post (fun _ => True) (· ≠ Fault.divByZero) (checkTxPin env s) := by
  unfold checkTxPin
  refine (txPin_post s.periph env.afio).bind fun r _ _ => ?_
  dsimp only
  split_ifs <;> trivial

theorem checkMap_post (s : Stm32Uart) :
    Post (fun _ => True) (· ≠ Fault.divByZero) (checkMap env s) := by
  unfold checkMap
  split
  · refine (getPeriphMap_post env.afio s.periph).bind fun map _ _ => ?_
    split
    · have hname : Post (fun _ => True) (· ≠ Fault.divByZero) (periphName s.periph) := by
        unfold periphName
        split
        · trivial
        · exact Fault.noConfusion
      exact hname.bind fun name _ _ => Fault.noConfusion
    · trivial
  · trivial

theorem srRead_rate (s : Stm32Uart) : s.srRead.2.rate = s.rate := by
  unfold srRead; dsimp only; split <;> rfl

theorem srWrite_quiet (s : Stm32Uart) (v : BitVec 32) : Quiet s.rate (s.srWrite v) := by
  unfold srWrite
  dsimp only
  split
  · exact Fault.noConfusion
  split
  · exact Fault.noConfusion
  · exact updateIrq_rate _

theorem drRead_quiet (s : Stm32Uart) :
    Post (fun r => r.2.rate = s.rate) (· ≠ Fault.divByZero) s.drRead := by
  have hrate : s.clearOre.rate = s.rate := by unfold clearOre; split <;> rfl
  unfold drRead
  dsimp only
  split
  · exact Fault.noConfusion
  split
  · exact Fault.noConfusion
  split
  · exact (updateIrq_rate _).trans hrate
  · exact Fault.noConfusion

theorem drWrite_quiet (s : Stm32Uart) (v : BitVec 32) : Quiet s.rate (drWrite build env s v) := by
  unfold drWrite
  dsimp only
  split
  · exact Fault.noConfusion
  split
  · exact Fault.noConfusion
  refine (checkTxPin_post s).bind fun _ _ _ => ?_
  split
  · exact (updateIrq_rate _).trans (startTx_sends build s _).rate
  split
  · exact updateIrq_rate _
  · exact Fault.noConfusion

theorem cr1Write_quiet (s : Stm32Uart) (v : BitVec 32) : Quiet s.rate (cr1Write env s v) := by
  unfold cr1Write
  exact (checkMap_post _).bind fun _ _ _ => updateIrq_rate _

theorem cr3Write_rate (s : Stm32Uart) (v : BitVec 32) : (cr3Write build env s v).rate = s.rate := by
  unfold cr3Write
  dsimp only
  split
  · split <;> rfl
  · rfl

theorem receive_quiet (s : Stm32Uart) (buf : List (BitVec 8)) :
    Quiet s.rate (receive build env s buf) := by
  cases buf with
  | nil => exact Fault.noConfusion
  | cons b buf =>
    have hrate : (s.accept b).rate = s.rate := by
      unfold accept
      split
      · rw [updateIrq_rate]
        split
        · exact updateIrq_rate _
        · rfl
      · rfl
    unfold receive
    dsimp only
    split
    · exact hrate
    · split <;> exact hrate

theorem read_quiet (s : Stm32Uart) (offset size : ℕ) :
    Post (fun r => r.2.rate = s.rate) (· ≠ Fault.divByZero) (s.read offset size) := by
  unfold Stm32Uart.read
  dsimp only
  split
  · exact s.srRead_rate
  · exact s.drRead_quiet.bind fun r _ hr => hr
  all_goals exact rfl

theorem write_quiet (s : Stm32Uart) {offset : ℕ} (value : BitVec 64) (size : ℕ)
    (ho : offset / 4 * 4 ≠ 0x08) : Quiet s.rate (s.write build env offset value size) := by
  unfold Stm32Uart.write
  split
  · exact s.srRead_rate ▸ srWrite_quiet _ _
  · exact s.drWrite_quiet _
  · exact absurd ‹_› ho
  · exact s.cr1Write_quiet _
  · exact rfl
  · exact s.cr3Write_rate _
  · exact rfl

theorem txDmaTimerExpire_rate (s : Stm32Uart) : (txDmaTimerExpire build env s).rate = s.rate := by
  unfold txDmaTimerExpire
  dsimp only
  split
  · exact (txComplete_sends build _).rate
  · rfl

/-! ## One operation -/

/-- `BRR` after an operation. -/
def Op.brr (s : Stm32Uart) : Op → BitVec 32
  | .write offset value size =>
    if offset / 4 * 4 = 0x08 then laneValue s.BRR offset value size &&& 0x0000ffff else s.BRR
  | .reset => 0
  | _ => s.BRR

theorem brrWrite_post (hf : env.rcc.getPeriphFreq s.periph = .ok f) :
    Post (fun t => t.rate.periph = s.periph ∧ t.rate.BRR = v &&& 0x0000ffff ∧ t.rate.Right f)
      (fun e => e = .divByZero ∧ ¬ Divides (v &&& 0x0000ffff) f) (brrWrite env s v) :=
  baudUpdate_post (s := { s with BRR := v &&& 0x0000ffff }) hf

/-- After a reset the rate is right, whatever it was before. -/
theorem reset_post (hf : env.rcc.getPeriphFreq s.periph = .ok f) :
    Post (fun t => t.rate.periph = s.periph ∧ t.rate.BRR = 0 ∧ t.rate.Right f) (· ≠ .divByZero)
      (s.reset build env) := by
  unfold reset
  dsimp only
  have hbrr := brrWrite_post (v := 0) (s := { s with
    SR_TXE := true, SR_TC := true, SR_RXNE := false, SR_ORE := false }) hf
  refine (hbrr.mono (fun _ h => h) fun e he => absurd (.inl rfl) he.2).bind fun t _ ht => ?_
  refine (cr1Write_quiet t 0).bind fun u _ hu => ?_
  have hrate : ((cr3Write build env (cr2Write u 0) 0).updateIrq).rate = t.rate := by
    rw [updateIrq_rate, cr3Write_rate]
    exact hu
  show _ ∧ _ ∧ _
  rw [hrate]
  exact ht

/-- An operation that leaves the rate alone. -/
theorem Quiet.post {x : Except Fault Stm32Uart} (h : Quiet s.rate x) :
    Post (fun t => t.rate.periph = s.periph ∧ t.rate.BRR = s.BRR ∧
        (s.rate.Right f → t.rate.Right f)) (fun e => e = .divByZero → ¬ Divides s.BRR f) x :=
  h.mono (fun t ht => by rw [ht]; exact ⟨rfl, rfl, fun hr => hr⟩) fun e hne he => absurd he hne

/-- **What an operation does to the rate**: it stays right for the frequency `f` of
    the clock.  A division by zero is one by the new `BRR`. -/
theorem step_post (hf : env.rcc.getPeriphFreq s.periph = .ok f) (o : Op) :
    Post (fun t => t.rate.periph = s.periph ∧ t.rate.BRR = o.brr s ∧
        (s.rate.Right f → t.rate.Right f))
      (fun e => e = .divByZero → ¬ Divides (o.brr s) f) (step build s (env, o)) := by
  cases o with
  | read offset size =>
    have hread : Quiet s.rate (step build s (env, .read offset size)) :=
      (s.read_quiet offset size).bind fun r _ hr => hr
    exact hread.post
  | write offset value size =>
    by_cases ho : offset / 4 * 4 = 0x08
    · have hx : step build s (env, .write offset value size) =
          brrWrite env s (laneValue s.BRR offset value size) := by
        show s.write build env offset value size = _
        simp only [Stm32Uart.write, ho]
      rw [hx, Op.brr, if_pos ho]
      exact (brrWrite_post hf).mono (fun t ht => ⟨ht.1, ht.2.1, fun _ => ht.2.2⟩) fun e he _ => he.2
    · rw [Op.brr, if_neg ho]
      exact (write_quiet s value size ho).post
  | receive buf => exact (s.receive_quiet buf).post
  | rxTimer =>
    refine Quiet.post ?_
    show Stm32Uart.rate (if _ then _ else _) = _
    split <;> rfl
  | txTimer =>
    refine Quiet.post ?_
    show Stm32Uart.rate (if _ then _ else _) = _
    split
    · exact (txComplete_sends build _).rate
    · rfl
  | txDmaTimer =>
    refine Quiet.post ?_
    show Stm32Uart.rate (if _ then _ else _) = _
    split
    · exact txDmaTimerExpire_rate _
    · rfl
  | clkIrq level =>
    cases level with
    | false => exact ⟨rfl, rfl, fun hr => hr⟩
    | true =>
      refine (baudUpdate_post hf).mono (fun t ht => ?_) fun e he _ => he.2
      exact ⟨ht.1, ht.2.1, fun _ => ht.2.2⟩
  | reset =>
    exact (reset_post hf).mono (fun t ht => ⟨ht.1, ht.2.1, fun _ => ht.2.2⟩) fun e hne he => absurd he hne

/-! ## The board -/

/-- What the UART looks at, apart from the RCC. -/
structure Around where
  afio : Stm32Afio
  gpio : ℕ → Stm32Gpio
  now : BitVec 64

def Around.withRcc (a : Around) (rcc : Stm32Rcc) : UartEnv := ⟨rcc, a.afio, a.gpio, a.now⟩

/-- The UART as a device of the board. -/
def client (build : UartBuild) (p : Periph) (chr : Bool) (afioBoardMap : BitVec 32) :
    Client Stm32Uart Around Op where
  start a rcc := start build (a.withRcc rcc) p chr afioBoardMap
  clkIrq a rcc s := clkIrqHandler (a.withRcc rcc) s 0 true
  step a rcc s o := step build s (a.withRcc rcc, o)

section
variable {host : Host} {irq : Irq} {oscFreq osc32Freq : BitVec 32} {p : Periph} {chr : Bool}
  {map : BitVec 32} {c : ClkId} {b : Board Stm32Uart}

theorem start_post (hf : env.rcc.getPeriphFreq p = .ok f) :
    Post (fun t => t.rate.periph = p ∧ t.rate.BRR = 0 ∧ t.rate.Right f) (· ≠ .divByZero)
      (start build env p chr map) := by
  unfold start
  refine (reset_post (s := init p) hf).bind fun s _ hs => ?_
  have hs' : (s.connect chr map).periph = p := hs.1
  rw [← hs'] at hf ⊢
  exact reset_post hf

/-- The device of `p` with the right rate for the frequency `f`. -/
def Current (p : Periph) (f : BitVec 32) (s : Stm32Uart) : Prop := s.periph = p ∧ s.rate.Right f

theorem start_current {b₀ : Board Stm32Uart}
    (h : Board.Made (client build p chr map) irq oscFreq osc32Freq p b₀) :
    ∃ c, PERIPHCLK p = some c ∧ b₀.dev.BRR = 0 ∧ Current p (b₀.freq c) b₀.dev := by
  obtain ⟨a, hstart⟩ := h.start
  obtain ⟨c, hp⟩ := h.clk
  have h : Post _ _ (start build (a.withRcc b₀.rcc) p chr map) :=
    start_post (b₀.rcc.getPeriphFreq_eq hp)
  rw [show start build (a.withRcc b₀.rcc) p chr map = .ok b₀.dev from hstart] at h
  exact ⟨c, hp, h.2.1, h.1, h.2.2⟩

/-- **The baud rate is never stale**: whatever the accesses to the RCC and the
    operations of the UART since the board was made, the rate is the one for `BRR` and
    for the frequency the peripheral clock has now. -/
theorem baud_current {b₀ : Board Stm32Uart}
    (hmade : Board.Made (client build p chr map) irq oscFreq osc32Freq p b₀)
    {ops : List (Board.Op Around Op)}
    (hrun : Machine.run (Board.step (client build p chr map) host irq) b₀ ops = .ok b) :
    ∃ f, b.rcc.getPeriphFreq p = .ok f ∧
      b.dev.bitsPerSec.toNat = (if b.dev.BRR = 0 ∨ f = 0 then 0 else f.toNat / b.dev.BRR.toNat) ∧
      (b.dev.bitsPerSec ≠ 0 → b.dev.nsPerChar.toNat = 10 * (10 ^ 9 / b.dev.bitsPerSec.toNat)) := by
  obtain ⟨c, hp, -, hcur⟩ := start_current hmade
  have h : Post (fun b => b.Kept irq c ∧ True ∧ Current p (b.freq c) b.dev) (fun _ => True)
      (Machine.run (Board.step (client build p chr map) host irq) b₀ ops) := by
    refine Board.run_post (C := fun _ _ => True) (J := fun _ => True) (fun _ _ _ _ _ => trivial)
      trivial ?_ ?_ (hmade.kept hp) trivial hcur fun _ _ _ => trivial
    · rintro a v - rcc s f ⟨rfl, -⟩ hf
      have h : Post _ _ (baudUpdate (a.withRcc rcc) s) := baudUpdate_post (Stm32Rcc.getPeriphFreq_of hp hf)
      exact h.mono (fun t ht => ⟨ht.1, ht.2.2⟩) fun _ _ => trivial
    · rintro b a o - - ⟨hs, hr⟩
      have h : Post _ _ (step build b.dev (a.withRcc b.rcc, o)) :=
        step_post (b.rcc.getPeriphFreq_eq (hs ▸ hp)) o
      exact h.mono (fun t ht => ⟨ht.1.trans hs, ht.2.2 hr⟩) fun _ _ => trivial
  rw [hrun] at h
  exact ⟨b.freq c, b.rcc.getPeriphFreq_eq hp, h.2.2.2.bits, h.2.2.2.ns⟩

end

/-- Pin 9 of port A is ready to transmit. -/
def ready : Around := ⟨.init, fun _ => { Stm32Gpio.init with CRH := 0x000000b0 }, 0⟩

/-- The board with `UART1`.  Only the kernel evaluates it. -/
@[irreducible] def board : Except Fault (Board Stm32Uart) :=
  Board.make (client .shipped .UART1 true 0) 8000000 32768 [(.UART1, 1)] ready

theorem board_made {b : Board Stm32Uart} (h : board = .ok b) :
    Board.Made (client .shipped .UART1 true 0) 1 8000000 32768 .UART1 b := by
  unfold board at h
  exact ⟨_, _, h, by decide, by simp⟩

/-- At 8 MHz a `BRR` of 69 is for 115200 baud. -/
theorem baud_current_115200 : ∃ b₀ b, board = .ok b₀ ∧
    Machine.run (Board.step (client .shipped .UART1 true 0) zeroHost 1) b₀
      [.rcc ready Access.reset, .rcc ready (Access.write 0x18 0x4000 4),
        .dev ready (.write 0x08 69 4)] = .ok b ∧
    b.dev.BRR = 69 ∧ b.rcc.getPeriphFreq .UART1 = .ok 8000000 ∧
    b.dev.bitsPerSec.toNat = 8000000 / 69 := by
  have h : Post (fun b₀ => Post (fun b => b.dev.BRR = 69 ∧ b.freq 21 = 8000000) (fun _ => False)
      (Machine.run (Board.step (client .shipped .UART1 true 0) zeroHost 1) b₀
        [.rcc ready Access.reset, .rcc ready (Access.write 0x18 0x4000 4),
          .dev ready (.write 0x08 69 4)])) (fun _ => False) board := by
    decide +kernel
  obtain ⟨b₀, hb₀, h⟩ := Machine.post_ok.1 h
  obtain ⟨b, hb, hbrr, hfreq⟩ := Machine.post_ok.1 h
  obtain ⟨f, hf, hbits, -⟩ := baud_current (board_made hb₀) hb
  have hclk : b.rcc.getPeriphFreq .UART1 = .ok 8000000 :=
    (b.rcc.getPeriphFreq_eq rfl).trans (congrArg _ hfreq)
  cases hf.symm.trans hclk
  rw [hbrr] at hbits
  exact ⟨b₀, b, hb₀, hb, hbrr, hclk, hbits⟩

end Stm32Uart

end Bluepill
