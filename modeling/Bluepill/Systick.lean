/-
  The scales of SysTick (`hw/intc/armv7m_nvic.c`, and the handler of `HCLK` in
  `hw/arm/stm32_rcc.c`).

  The RCC is a user of its own clock `HCLK`: every change of the frequency, also those in
  the middle of a write to `CFGR`, calls a handler that sets the two scales from it.  On a
  board with 8 MHz the frequency of `HCLK` is `0` or between 500 kHz and 128 MHz, so that
  the handler never divides by zero, and the scales are those of the frequency in force
  (`scales_follow`).
-/
import Bluepill.Board
import Bluepill.Rcc.Range

namespace Bluepill

open Rcc Machine

/-- `system_clock_scale` and `external_ref_clock_scale`. -/
structure Systick where
  systemClockScale : BitVec 32
  externalRefClockScale : BitVec 32

namespace Systick

def init : Systick where
  systemClockScale := 0
  externalRefClockScale := 1000

/-- `stm32_rcc_hclk_upd_irq_handler`.  The dividend `get_ticks_per_sec()` has 64 bits. -/
def hclkUpdIrqHandler (rcc : Stm32Rcc) (s : Systick) : Except Fault Systick :=
  let hclkFreq := rcc.clktree.getOutputFreq HCLK
  if 0 < hclkFreq then
    let extRefFreq := hclkFreq / 8
    if extRefFreq = 0 then .error .divByZero
    else .ok {
      systemClockScale := (1000000000 / hclkFreq.setWidth 64 : BitVec 64).setWidth 32
      externalRefClockScale := (1000000000 / extRefFreq.setWidth 64 : BitVec 64).setWidth 32 }
  else .ok s

/-- SysTick as a device that uses a clock.  It has no other operations here. -/
def client : Client Systick Unit Empty where
  start _ _ := .ok init
  clkIrq _ rcc s := hclkUpdIrqHandler rcc s
  step _ _ _ o := o.elim

/-- The scales are those for the frequency `f` of `HCLK`, unless it is `0`. -/
def Scales (f : BitVec 32) (s : Systick) : Prop :=
  f ≠ 0 → s.systemClockScale.toInt = 10 ^ 9 / f.toNat ∧ 0 < s.systemClockScale.toInt ∧
    s.externalRefClockScale.toInt = 10 ^ 9 / (f.toNat / 8 : ℕ) ∧ 0 < s.externalRefClockScale.toInt

variable {f : BitVec 32} {s : Systick} {rcc : Stm32Rcc} {host : Host} {osc32Freq : BitVec 32}

/-- A scale, as a number. -/
theorem scale_toInt (h₁ : 1 ≤ f.toNat) (h₂ : f.toNat ≤ 10 ^ 9) :
    ((1000000000 / f.setWidth 64 : BitVec 64).setWidth 32).toInt = 10 ^ 9 / f.toNat ∧
      0 < ((1000000000 / f.setWidth 64 : BitVec 64).setWidth 32).toInt := by
  have hle : 10 ^ 9 / f.toNat ≤ 10 ^ 9 := Nat.div_le_self _ _
  have hpos : 0 < 10 ^ 9 / f.toNat := Nat.div_pos h₂ h₁
  have hwide : (f.setWidth 64).toNat = f.toNat := by
    rw [BitVec.toNat_setWidth, Nat.mod_eq_of_lt (f.isLt.trans (by decide))]
  have hnat : ((1000000000 / f.setWidth 64 : BitVec 64).setWidth 32).toNat = 10 ^ 9 / f.toNat := by
    rw [BitVec.toNat_setWidth, BitVec.toNat_udiv, hwide]
    exact Nat.mod_eq_of_lt (Nat.lt_of_le_of_lt hle (by decide))
  have hint : ((1000000000 / f.setWidth 64 : BitVec 64).setWidth 32).toInt = (10 ^ 9 / f.toNat : ℕ) := by
    rw [BitVec.toInt_eq_toNat_of_lt (by rw [hnat]; omega), hnat]
  rw [hint]
  exact ⟨by push_cast; rfl, by omega⟩

/-- The handler, at any frequency that `HCLK` can have. -/
theorem hclkUpdIrqHandler_post (hf : rcc.clktree.getOutputFreq HCLK = f)
    (hrange : f = 0 ∨ 500000 ≤ f.toNat ∧ f.toNat ≤ 128000000) :
    Post (Scales f) (· = Stm32Rcc.badSysclk) (hclkUpdIrqHandler rcc s) := by
  unfold hclkUpdIrqHandler
  rw [hf]
  dsimp only
  rcases hrange with rfl | ⟨hlo, hhi⟩
  · exact fun h0 => absurd rfl h0
  have hext : (f / 8).toNat = f.toNat / 8 := BitVec.toNat_udiv
  have hpos : 0 < f := by
    show 0 < f.toNat
    omega
  have hne : f / 8 ≠ 0 := by
    intro h0
    rw [h0] at hext
    change 0 = f.toNat / 8 at hext
    omega
  rw [if_pos hpos, if_neg hne]
  intro _
  obtain ⟨hsys, hsys_pos⟩ := scale_toInt (f := f) (by omega) (by omega)
  obtain ⟨href, href_pos⟩ := scale_toInt (f := f / 8) (by omega) (by omega)
  rw [hext] at href
  exact ⟨hsys, hsys_pos, href, href_pos⟩

/-- `HCLK` has multiplier `0` until the first reset. -/
theorem hclk_off {oscFreq : BitVec 32} {t : ClkTree}
    (h : Sync (Stm32Rcc.initGraph oscFreq osc32Freq) t) : t.getOutputFreq HCLK = 0 := by
  have hlt : HCLK < (Stm32Rcc.initGraph oscFreq osc32Freq).size := by
    rw [h.size]
    decide
  have hm := h.agrees.node HCLK hlt
  have hmul := (ClkTree.initGraph_scale oscFreq osc32Freq HCLK (by decide)).1
  have hset := (h.good.up HCLK (h.agrees.size ▸ hlt)).settled
  rw [ClkTree.getOutputFreq, hset, hm.out]
  exact out_zero hm.nonzero (.inr hmul)

/-- **SysTick follows `HCLK`**: whatever the accesses to the RCC since the board was made,
    the handler has never divided by zero, and the scales are those for the frequency that
    `HCLK` has now.  An access fails only if it selects an invalid system clock. -/
theorem scales_follow {l : List (Periph × Irq)} {b₀ : Board Systick}
    (hmade : Board.make client 8000000 osc32Freq l () = .ok b₀) (hl : ∀ q, (q, hclkUpdIrq) ∉ l)
    (ops : List (Board.Op Unit Empty)) :
    Post (fun b => Scales (b.freq HCLK) b.dev) (· = Stm32Rcc.badSysclk)
      (Machine.run (Board.step client host hclkUpdIrq) b₀ ops) := by
  obtain ⟨rcc, hrcc, hmade⟩ := Machine.bind_eq_ok.1 hmade
  obtain ⟨dev, hdev, hmade⟩ := Machine.bind_eq_ok.1 hmade
  cases hmade
  obtain ⟨hsync, hlistens⟩ := Stm32Rcc.wire_hclk hrcc hl
  have hbounded := ClkTree.bounded_init hsync
  have hoff := hclk_off hsync
  refine Post.mono (Board.run_post (C := fun _ _ => True) (J := ClkTree.Bounded) (P := Scales)
    (E := (· = Stm32Rcc.badSysclk)) (fun t u _ => ClkTree.Bounded.step) rfl ?_ ?_ ⟨⟨_, hsync⟩, hlistens⟩ hbounded ?_ fun _ _ _ => trivial)
    (fun b hb => hb.2.2) fun _ he => he
  · rintro - v hv rcc s f - hf
    exact hclkUpdIrqHandler_post hf (hv.within HCLK (by decide))
  · intro b _ o
    exact o.elim
  · show Scales (rcc.clktree.getOutputFreq HCLK) dev
    rw [hoff]
    exact fun h0 => absurd rfl h0

/-- The board without other devices.  Only the kernel evaluates it. -/
@[irreducible] def board : Except Fault (Board Systick) := Board.make client 8000000 32768 [] ()

/-- A reset, and `HCLK` as slow as it can be. -/
def slow : List (Board.Op Unit Empty) :=
  [.rcc () Stm32Rcc.Access.reset, .rcc () (Stm32Rcc.Access.write 0x04 0xf0 4)]

theorem scales_follow_slow : ∃ b₀ b, board = .ok b₀ ∧
    Machine.run (Board.step client zeroHost hclkUpdIrq) b₀ slow = .ok b ∧ b.freq HCLK = 500000 ∧
    b.dev.systemClockScale.toInt = 2000 ∧ b.dev.externalRefClockScale.toInt = 16000 := by
  have heval : Post (fun b₀ => Post (fun b => b.freq HCLK = 500000) (fun _ => False)
      (Machine.run (Board.step client zeroHost hclkUpdIrq) b₀ slow)) (fun _ => False) board := by
    decide +kernel
  obtain ⟨b₀, hb₀, hrun⟩ := Machine.post_ok.1 heval
  obtain ⟨b, hb, hfreq⟩ := Machine.post_ok.1 hrun
  have hmade := hb₀
  unfold board at hmade
  have hscales : Post _ _ (Machine.run (Board.step client zeroHost hclkUpdIrq) b₀ slow) :=
    scales_follow hmade (fun _ => List.not_mem_nil) slow
  rw [hb] at hscales
  obtain ⟨hsys, -, href, -⟩ := hscales (by rw [hfreq]; decide)
  rw [hfreq] at hsys href
  exact ⟨b₀, b, hb₀, hb, hfreq, hsys, href⟩

end Systick

end Bluepill
