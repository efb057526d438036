/-
  The division by the baud rate.

  `baudUpdate` divides the frequency of the clock by `BRR`, and a second by the
  result.  That is `0` if `BRR` is greater than the frequency, and then the host
  divides by zero (`divByZero_prescaled`).

  With oscillators of 8 MHz the clock of a UART is off, or has at least 62500 Hz.  So
  there is no division by zero as long as no greater value is written to `BRR`
  (`baud_divides`).
-/
import Bluepill.Rcc.Range
import Bluepill.Uart.Baud

namespace Bluepill

open Rcc Machine
open Stm32Rcc (Access)

namespace Stm32Uart

def uarts : List Periph := [.UART1, .UART2, .UART3, .UART4, .UART5]

/-- What is stored in `BRR`, if the operation writes it, is at most 62500. -/
def SmallBrr (b : Board Stm32Uart) : Board.Op Around Op → Prop
  | .dev _ (.write offset value size) =>
    offset / 4 * 4 = 0x08 → (laneValue b.dev.BRR offset value size &&& 0x0000ffff).toNat ≤ 62500
  | _ => True

instance (b : Board Stm32Uart) : (o : Board.Op Around Op) → Decidable (SmallBrr b o)
  | .rcc .. => .isTrue trivial
  | .dev _ o =>
    match o with
    | .write offset value size =>
      inferInstanceAs (Decidable (offset / 4 * 4 = 0x08 →
        (laneValue b.dev.BRR offset value size &&& 0x0000ffff).toNat ≤ 62500))
    | .read .. | .receive _ | .rxTimer | .txTimer | .txDmaTimer | .clkIrq _ | .reset =>
      .isTrue trivial

variable {build : UartBuild} {host : Host} {irq : Irq} {osc32Freq : BitVec 32} {p : Periph}
  {chr : Bool} {map : BitVec 32} {c : ClkId} {b : Board Stm32Uart} {a : Around} {o : Op}
  {B f : BitVec 32}

theorem brr_le (h : SmallBrr b (.dev a o)) (hb : b.dev.BRR.toNat ≤ 62500) :
    (o.brr b.dev).toNat ≤ 62500 := by
  cases o with
  | write offset value size =>
    by_cases ho : offset / 4 * 4 = 0x08
    · rw [Op.brr, if_pos ho]; exact h ho
    · rw [Op.brr, if_neg ho]; exact hb
  | reset => exact Nat.zero_le _
  | _ => exact hb

/-- The clock of a UART is off, or not slower than 62500 Hz. -/
theorem uart_freq {t : ClkTree} (h : t.Bounded) (hp : p ∈ uarts) (hc : PERIPHCLK p = some c) :
    t.getOutputFreq c = 0 ∨ 62500 ≤ (t.getOutputFreq c).toNat := by
  have hrange : c < CLK_COUNT ∧ (range c).1 = 62500 := by
    simp only [uarts, List.mem_cons, List.not_mem_nil, or_false] at hp
    rcases hp with rfl | rfl | rfl | rfl | rfl <;> cases hc <;> decide
  rcases h.within c hrange.1 with h0 | hf
  · exact .inl h0
  · exact .inr (hrange.2 ▸ hf.1)

theorem divides (hB : B.toNat ≤ 62500) (hf : f = 0 ∨ 62500 ≤ f.toNat) : Divides B f := by
  by_cases hB0 : B = 0
  · exact .inl hB0
  rcases hf with hf | hf
  · exact .inr (.inl hf)
  refine .inr (.inr fun h0 => ?_)
  have hpos : 0 < B.toNat := Nat.pos_of_ne_zero fun h => hB0 (BitVec.eq_of_toNat_eq h)
  have hquot : f.toNat / B.toNat = 0 := by rw [← BitVec.toNat_udiv, h0]; rfl
  exact absurd (Nat.div_eq_zero_iff.1 hquot) (by omega)

/-- **No division by zero**, as long as at most 62500 is written to `BRR`: whatever the
    accesses to the RCC and the operations of the UART, the rate is not `0` unless `BRR`
    or the frequency of the clock is. -/
theorem baud_divides (huart : p ∈ uarts) {b₀ : Board Stm32Uart}
    (hmade : Board.Made (client build p chr map) irq 8000000 osc32Freq p b₀)
    {ops : List (Board.Op Around Op)}
    (hsmall : ∀ t o, Takes (Board.step (client build p chr map) host irq) b₀ ops t o → SmallBrr t o) :
    Post (fun b => ∃ f, b.rcc.getPeriphFreq p = .ok f ∧
        (b.dev.BRR ≠ 0 → f ≠ 0 → b.dev.bitsPerSec ≠ 0)) (· ≠ .divByZero)
      (Machine.run (Board.step (client build p chr map) host irq) b₀ ops) := by
  obtain ⟨c, hp, hB₀, hcur⟩ := start_current hmade
  have hinit : b₀.dev.BRR.toNat ≤ 62500 := by rw [hB₀]; decide
  refine Post.mono (Board.run_post (J := ClkTree.Bounded)
    (P := fun f s => Current p f s ∧ s.BRR.toNat ≤ 62500) (fun t u _ => ClkTree.Bounded.step)
    Fault.noConfusion ?_ ?_ (hmade.kept hp) (ClkTree.bounded_init (hmade.sync hp).1)
    ⟨hcur, hinit⟩ hsmall) (fun b hb => ?_) fun _ he => he
  · rintro a v hv rcc s f ⟨⟨rfl, -⟩, hB⟩ hf
    have h : Post _ _ (baudUpdate (a.withRcc rcc) s) := baudUpdate_post (Stm32Rcc.getPeriphFreq_of hp hf)
    refine h.mono (fun t ht => ⟨⟨ht.1, ht.2.2⟩, ?_⟩) fun e he => ?_
    · rw [show t.BRR = s.BRR from ht.2.1]; exact hB
    · exact absurd (divides hB (uart_freq hv huart hp)) he.2
  · rintro b a o hC hJ ⟨⟨hs, hr⟩, hB⟩
    have h : Post _ _ (step build b.dev (a.withRcc b.rcc, o)) :=
      step_post (b.rcc.getPeriphFreq_eq (hs ▸ hp)) o
    refine h.mono (fun t ht => ⟨⟨ht.1.trans hs, ht.2.2 hr⟩, ?_⟩) fun e he h0 => ?_
    · rw [show t.BRR = o.brr b.dev from ht.2.1]; exact brr_le hC hB
    · exact he h0 (divides (brr_le hC hB) (uart_freq hJ huart hp))
  · obtain ⟨-, hJ, ⟨-, hr⟩, hB⟩ := hb
    refine ⟨b.freq c, b.rcc.getPeriphFreq_eq hp, fun hB0 hf0 h0 => ?_⟩
    have hbits : b.dev.bitsPerSec.toNat = (b.freq c).toNat / b.dev.BRR.toNat :=
      hr.bits.trans (if_neg (not_or.2 ⟨hB0, hf0⟩))
    rw [h0, ← BitVec.toNat_udiv] at hbits
    rcases divides hB (uart_freq hJ huart hp) with h | h | h
    · exact hB0 h
    · exact hf0 h
    · exact h (BitVec.eq_of_toNat_eq hbits.symm)

/-- The clock of `UART1` at its slowest: 62500 Hz. -/
def slowest : List (Board.Op Around Op) :=
  [.rcc ready Access.reset, .rcc ready (Access.write 0x04 0x38f0 4),
    .rcc ready (Access.write 0x18 0x4000 4)]

/-- The greatest `BRR` for it. -/
theorem baud_divides_slowest : ∃ b₀ b, board = .ok b₀ ∧
    Machine.run (Board.step (client .shipped .UART1 true 0) zeroHost 1) b₀
      (slowest ++ [.dev ready (.write 0x08 62500 4)]) = .ok b ∧
    b.rcc.getPeriphFreq .UART1 = .ok 62500 ∧ b.dev.BRR = 62500 ∧ b.dev.bitsPerSec ≠ 0 := by
  have h : Post (fun b₀ => Meets (Board.step (client .shipped .UART1 true 0) zeroHost 1) SmallBrr b₀
        (slowest ++ [.dev ready (.write 0x08 62500 4)]) ∧
      Post (fun b => b.freq 21 = 62500 ∧ b.dev.BRR = 62500) (fun _ => False)
        (Machine.run (Board.step (client .shipped .UART1 true 0) zeroHost 1) b₀
          (slowest ++ [.dev ready (.write 0x08 62500 4)]))) (fun _ => False) board := by
    decide +kernel
  obtain ⟨b₀, hb₀, hmeets, h⟩ := Machine.post_ok.1 h
  obtain ⟨b, hb, hfreq, hbrr⟩ := Machine.post_ok.1 h
  have hpost := baud_divides (by decide) (board_made hb₀) hmeets.takes
  rw [hb] at hpost
  obtain ⟨f, hf, hbits⟩ := hpost
  have hclk : b.rcc.getPeriphFreq .UART1 = .ok 62500 :=
    (b.rcc.getPeriphFreq_eq rfl).trans (congrArg _ hfreq)
  cases hf.symm.trans hclk
  exact ⟨b₀, b, hb₀, hb, hclk, hbrr, hbits (by rw [hbrr]; decide) (by decide)⟩

/-- With the next one the host divides by zero. -/
theorem divByZero_prescaled : ∃ b₀ b, board = .ok b₀ ∧
    Machine.run (Board.step (client .shipped .UART1 true 0) zeroHost 1) b₀ slowest = .ok b ∧
    b.rcc.getPeriphFreq .UART1 = .ok 62500 ∧
    Board.step (client .shipped .UART1 true 0) zeroHost 1 b (.dev ready (.write 0x08 62501 4)) =
      .error .divByZero := by
  have h : Post (fun b₀ => Post (fun b => b.freq 21 = 62500 ∧
      Post (fun _ => False) (· = .divByZero) (Board.step (client .shipped .UART1 true 0) zeroHost 1 b
        (.dev ready (.write 0x08 62501 4)))) (fun _ => False)
      (Machine.run (Board.step (client .shipped .UART1 true 0) zeroHost 1) b₀ slowest))
      (fun _ => False) board := by
    decide +kernel
  obtain ⟨b₀, hb₀, h⟩ := Machine.post_ok.1 h
  obtain ⟨b, hb, hfreq, herr⟩ := Machine.post_ok.1 h
  exact ⟨b₀, b, hb₀, hb, (b.rcc.getPeriphFreq_eq rfl).trans (congrArg _ hfreq),
    Machine.post_error.1 herr⟩

end Stm32Uart

end Bluepill
