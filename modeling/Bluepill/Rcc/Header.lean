/-
  The enable bits of `stm32f10x.h`.

  The header has a bit for each clock of a peripheral that hangs on a bus
  (`EnableReg.header`), and the device one of its own (`EnableReg.wired`).  In
  every history the clock has the device's bit of the value last written
  (`Tracks`), and so the frequency of the bus or none.

  The two bits differ for three clocks: the device takes bit 1 for DMA1, which is
  bit 0 of the header, shifts too far for the CRC, and never enables the DAC.  The
  other clocks follow the header (`followsHeader_iff`).
-/
import Bluepill.Rcc.Clocks
import Bluepill.Rcc.Enable

namespace Bluepill

open Forest Rcc Stm32Rcc

deriving instance DecidableEq for EnableReg

namespace EnableReg

/-- The masks of `stm32f10x.h`, as bit numbers, for the clocks that the device has. -/
def header : EnableReg → List (Periph × ℕ)
  | AHBENR => [(.DMA1, 0), (.CRC, 6)]
  | APB2ENR =>
    [(.AFIO_PERIPH, 0), (.GPIOA, 2), (.GPIOB, 3), (.GPIOC, 4), (.GPIOD, 5), (.GPIOE, 6),
     (.GPIOF, 7), (.GPIOG, 8), (.ADC1, 9), (.TIM1, 11), (.TIM8, 13), (.UART1, 14)]
  | APB1ENR =>
    [(.TIM2, 0), (.TIM3, 1), (.TIM4, 2), (.TIM5, 3), (.TIM6, 4), (.TIM7, 5), (.UART2, 17),
     (.UART3, 18), (.UART4, 19), (.UART5, 20), (.DAC, 29)]

/-- The clock of the bus. -/
def bus : EnableReg → ClkId
  | AHBENR => HCLK | APB2ENR => PCLK2 | APB1ENR => PCLK1

/-- The value last written to the register, if it was `v` before the operation. -/
def last (R : EnableReg) (v : BitVec 32) : Op → BitVec 32
  | .write offset value size => if offset = R.offset ∧ size = 4 then value.setWidth 32 else v
  | .reset => 0
  | .setPeriphClkIrq _ _ | .setResetFlags _ => v

/-- The value last written to the register since the first reset. -/
def lastWritten (R : EnableReg) (l : List Op) : BitVec 32 := l.foldl R.last 0

/-- The bit of the value that the device takes for the clock, if any. -/
def wired (R : EnableReg) (host : Host) (p : Periph) (v : BitVec 32) : Bool :=
  ((R.periphs.lookup p).map (testBIT host v)).getD false

/-- The bit of the value that the device takes for the clock is as that of the header. -/
def BitAgrees (host : Host) (p : Periph) (v : BitVec 32) : Prop :=
  match p with
  | .DMA1 => v.getLsbD 1 = v.getLsbD 0
  | .CRC => testBIT host v 64 = v.getLsbD 6
  | .DAC => v.getLsbD 29 = false
  | _ => True

variable {R : EnableReg} {p : Periph × ℕ} {host : Host} {v : BitVec 32}

theorem header_clk (hp : p ∈ R.header) :
    ∃ c : ℕ, PERIPHCLK p.1 = some c ∧ 12 < c ∧ c ≠ RTCCLK ∧ busClk c = R.bus ∧ p.1 ≠ .RTC := by
  have : ∀ p ∈ R.header, ∃ c ∈ PERIPHCLK p.1,
      12 < c ∧ c ≠ RTCCLK ∧ busClk c = R.bus ∧ p.1 ≠ .RTC := by
    cases R <;> decide
  exact this p hp

theorem wired_zero (R : EnableReg) (host : Host) (p : Periph) : R.wired host p 0 = false := by
  unfold wired
  cases R.periphs.lookup p <;> simp [testBIT]

/-- The clocks that the device has another bit for, or none. -/
theorem header_odd (hp : p ∈ R.header) (h : R.periphs.lookup p.1 ≠ some p.2) :
    R = AHBENR ∧ (p = (.DMA1, 0) ∨ p = (.CRC, 6)) ∨ R = APB1ENR ∧ p = (.DAC, 29) := by
  have : ∀ p ∈ R.header, R.periphs.lookup p.1 ≠ some p.2 →
      R = AHBENR ∧ (p = (.DMA1, 0) ∨ p = (.CRC, 6)) ∨ R = APB1ENR ∧ p = (.DAC, 29) := by
    cases R <;> decide
  exact this p hp h

theorem header_bit (hp : p ∈ R.header) : p.2 < 32 := by
  have : ∀ p ∈ R.header, p.2 < 32 := by cases R <;> decide
  exact this p hp

theorem bitAgrees_of_lookup (hp : p ∈ R.header) (h : R.periphs.lookup p.1 = some p.2)
    (host : Host) (v : BitVec 32) : BitAgrees host p.1 v := by
  have hne : ∀ p ∈ R.header, R.periphs.lookup p.1 = some p.2 →
      p.1 ≠ .DMA1 ∧ p.1 ≠ .CRC ∧ p.1 ≠ .DAC := by
    cases R <;> decide
  obtain ⟨h₁, h₂, h₃⟩ := hne p hp h
  unfold BitAgrees
  split
  · contradiction
  · contradiction
  · contradiction
  · trivial

/-- The device agrees with the header on the other clocks. -/
theorem wired_eq_iff (hp : p ∈ R.header) :
    R.wired host p.1 v = v.getLsbD p.2 ↔ BitAgrees host p.1 v := by
  by_cases hb : R.periphs.lookup p.1 = some p.2
  · refine iff_of_true ?_ (bitAgrees_of_lookup hp hb host v)
    rw [wired, hb]
    exact testBIT_eq host v (header_bit hp)
  · rcases header_odd hp hb with ⟨rfl, rfl | rfl⟩ | ⟨rfl, rfl⟩
    · rw [show wired AHBENR host .DMA1 v = testBIT host v 1 from rfl, testBIT_eq host v (by decide)]
      exact Iff.rfl
    · exact Iff.rfl
    · exact eq_comm

theorem en_write (host : Host) (a : RccSpec) (R : EnableReg) (v : BitVec 32) :
    (R.write host a v).en = RccSpec.enable host v R.periphs a.en := by
  cases R <;> rfl

end EnableReg

/-! ## The enable bits -/

namespace RccSpec

variable {R : EnableReg} {p : Periph × ℕ} {host : Host} {a b : RccSpec} {w : EnableReg → BitVec 32}

/-- Each clock has the device's bit of the value last written to its register. -/
def Tracks (host : Host) (a : RccSpec) (w : EnableReg → BitVec 32) : Prop :=
  ∀ R : EnableReg, ∀ p ∈ R.header, ∀ c, PERIPHCLK p.1 = some c → a.en c = R.wired host p.1 (w R)

theorem Tracks.of_eq (h : Tracks host a w) (he : ∀ c : ℕ, 12 < c → c ≠ RTCCLK → b.en c = a.en c) :
    Tracks host b w := by
  intro R p hp c hc
  obtain ⟨c', hc', hlt, hne, -⟩ := EnableReg.header_clk hp
  cases hc.symm.trans hc'
  rw [he c hlt hne, h R p hp c hc]

theorem Tracks.write (h : Tracks host a w) (R : EnableReg) (v : BitVec 32) :
    Tracks host (R.write host a v) (Function.update w R v) := by
  intro R' p hp c hc
  rw [EnableReg.en_write]
  by_cases hR : R' = R
  · subst hR
    rw [Function.update_self]
    unfold EnableReg.wired
    cases hb : R'.periphs.lookup p.1 with
    | some b =>
      obtain ⟨l₁, l₂, hl, -⟩ := List.lookup_eq_some_iff.1 hb
      have hmem : (p.1, b) ∈ R'.periphs := by simp [hl]
      exact enable_of_mem (p := (p.1, b)) hc (by cases R' <;> decide) hmem
    | none =>
      -- the register has no call for the clock, which is off as before
      have hne : ∀ p ∈ R'.header, R'.periphs.lookup p.1 = none →
          ∀ q ∈ R'.periphs, PERIPHCLK q.1 ≠ PERIPHCLK p.1 := by
        cases R' <;> decide
      rw [enable_of_ne (hc ▸ hne p hp hb), h R' p hp c hc, EnableReg.wired, hb]
      rfl
  · have hne : ∀ p ∈ R'.header, ∀ q ∈ R.periphs, PERIPHCLK q.1 ≠ PERIPHCLK p.1 := by
      cases R <;> cases R' <;> first | exact absurd rfl hR | decide
    rw [Function.update_of_ne hR, enable_of_ne (hc ▸ hne p hp), h R' p hp c hc]

theorem Tracks.reset (h : Tracks host a w) : Tracks host (a.reset host) fun _ => 0 := by
  have h₁ : Tracks host { a.crWrite host 0x00000083 with regs := cfgrRegs a.regs 0 } w :=
    h.of_eq fun c hc _ => crWrite_en _ hc
  have h₄ := ((h₁.write .APB2ENR 0).write .APB1ENR 0).write .AHBENR 0
  have hw : Function.update (Function.update (Function.update w .APB2ENR 0) .APB1ENR 0) .AHBENR 0 =
      fun _ => 0 := by
    funext R
    cases R <;> rfl
  rw [hw] at h₄
  refine h₄.of_eq fun c hc hr => ?_
  exact (csrWrite_en _ hc).trans (bdcrWrite_en _ hc hr)

theorem tracks_powerOn (host : Host) (oscFreq osc32Freq : BitVec 32) :
    Tracks host (powerOn host oscFreq osc32Freq) fun _ => 0 := by
  refine Tracks.reset (w := fun _ => 0) fun R p _ c _ => ?_
  rw [EnableReg.wired_zero]

theorem Tracks.step (h : Tracks host a w) {o : Op} (hs : a.step host o = some b) :
    Tracks host b fun R => R.last (w R) o := by
  rcases step_enables hs with ⟨R, value, rfl, rfl⟩ | ⟨rfl, rfl⟩ | ⟨hwrite, hreset, -, he⟩
  · have hlast : (fun R' : EnableReg => R'.last (w R') (.write R.offset value 4)) =
        Function.update w R (value.setWidth 32) := by
      funext R'
      cases R <;> cases R' <;> rfl
    rw [hlast]
    exact h.write R _
  · exact h.reset
  · have hlast : (fun R : EnableReg => R.last (w R) o) = w := by
      funext R
      cases o with
      | write offset value size =>
        refine if_neg ?_
        rintro ⟨rfl, rfl⟩
        exact hwrite R value rfl
      | reset => exact absurd rfl hreset
      | setPeriphClkIrq => rfl
      | setResetFlags => rfl
    rw [hlast]
    exact h.of_eq he

variable (ho : Ordered (graph a.regs a.en).sel)
include ho

/-- A clock of a peripheral is that of its bus, or off. -/
theorem freq_header (hp : p ∈ R.header) {c : ℕ} (hc : PERIPHCLK p.1 = some c) :
    (graph a.regs a.en).freq c = if a.en c then (graph a.regs a.en).freq R.bus else 0 := by
  obtain ⟨c', hc', -, -, hbus, hrtc⟩ := EnableReg.header_clk hp
  cases hc.symm.trans hc'
  rw [← hbus]
  split
  · rename_i he
    exact BitVec.eq_of_toNat_eq (freq_periph ho hc hrtc he)
  · rename_i he
    rw [Graph.freq, flow_child ho (sel_periph hc hrtc), node_periph hc hrtc]
    exact if_neg he

end RccSpec

/-! ## The device -/

namespace Stm32Rcc

variable {host : Host} {s u : Stm32Rcc} {w : EnableReg → BitVec 32} {R : EnableReg} {p : Periph × ℕ}

/-- The clock runs with its bus if its bit of the header is set in `v`, and is off otherwise. -/
def FollowsHeader (s : Stm32Rcc) (R : EnableReg) (p : Periph × ℕ) (v : BitVec 32) : Prop :=
  s.getPeriphFreq p.1 = .ok (if v.getLsbD p.2 then s.clktree.getOutputFreq R.bus else 0)

theorem run_tracks {l : List Op} : ∀ {s : Stm32Rcc} {w : EnableReg → BitVec 32},
    (∃ a : RccSpec, s.Refines a ∧ a.Tracks host w) → Machine.run (step host) s l = .ok u →
      ∃ a : RccSpec, u.Refines a ∧ a.Tracks host fun R => l.foldl R.last (w R) := by
  induction l with
  | nil =>
    rintro s w h hr
    cases hr
    exact h
  | cons o l ih =>
    rintro s w ⟨a, ha, hw⟩ hr
    obtain ⟨t, ht, hr⟩ := Machine.run_cons_ok.1 hr
    obtain ⟨b, hb, htb⟩ := ha.step ht
    exact ih ⟨b, htb, hw.step hb⟩ hr

end Stm32Rcc

open Stm32Rcc

/-- **The clocks that follow the bits of the header.** -/
theorem followsHeader_iff {host : Host} {oscFreq osc32Freq : BitVec 32} {s₀ s₁ s : Stm32Rcc}
    {l : List Stm32Rcc.Op} (h₀ : init oscFreq osc32Freq = .ok s₀) (h₁ : s₀.reset host = .ok s₁)
    (h : Machine.run (step host) s₁ l = .ok s) {R : EnableReg} {p : Periph × ℕ}
    (hp : p ∈ R.header) :
    s.FollowsHeader R p (R.lastWritten l) ↔
      EnableReg.BitAgrees host p.1 (R.lastWritten l) ∨ s.clktree.getOutputFreq R.bus = 0 := by
  obtain ⟨a, ha, hw⟩ := run_tracks ⟨_, refines_powerOn h₀ h₁, RccSpec.tracks_powerOn _ _ _⟩ h
  obtain ⟨c, hc, -⟩ := EnableReg.header_clk hp
  have hfreq : s.getPeriphFreq p.1 =
      .ok (if R.wired host p.1 (R.lastWritten l) then s.clktree.getOutputFreq R.bus else 0) := by
    have hbus : R.bus < CLK_COUNT := by cases R <;> decide
    rw [getPeriphFreq, hc]
    show Except.ok (s.clktree.getOutputFreq c) = _
    rw [ha.getOutputFreq (periphClk_gated hc).1, ha.getOutputFreq hbus,
      RccSpec.freq_header ha.ordered hp hc, hw R p hp c hc]
    rfl
  rw [FollowsHeader, hfreq, ← EnableReg.wired_eq_iff hp]
  cases R.wired host p.1 (R.lastWritten l) <;> cases (R.lastWritten l).getLsbD p.2 <;>
    simp [eq_comm]

/-- UART2 is enabled, and `PCLK1` divided by two after that. -/
theorem followsHeader_iff_uart2 : ∃ s₀ s₁ s, init 8000000 32768 = .ok s₀ ∧
    s₀.reset zeroHost = .ok s₁ ∧
    Machine.run (step zeroHost) s₁ [.write 0x1c 0x20000 4, .write 0x04 0x400 4] = .ok s ∧
    s.FollowsHeader .APB1ENR (.UART2, 17) 0x20000 := by
  obtain ⟨s₀, s₁, t, h₀, h₁, ht, htr, href⟩ := exists_write
    (show (RccSpec.powerOn zeroHost 8000000 32768).write zeroHost 0x1c 0x20000 4 = some _ from rfl)
  obtain ⟨s, hs, -, -⟩ := htr.write href
    (show RccSpec.write zeroHost _ 0x04 0x400 4 = some _ from rfl)
  have h : Machine.run (step zeroHost) s₁ [.write 0x1c 0x20000 4, .write 0x04 0x400 4] = .ok s :=
    Machine.run_cons_ok.2 ⟨t, ht, Machine.run_cons_ok.2 ⟨s, hs, rfl⟩⟩
  exact ⟨s₀, s₁, s, h₀, h₁, h, (followsHeader_iff h₀ h₁ h (by decide)).2 (.inl trivial)⟩

/-- DMA1 is enabled as the firmware does it: the bus has a clock, and DMA1 has none. -/
theorem not_followsHeader_dma1 : ∃ s₀ s₁ s, init 8000000 32768 = .ok s₀ ∧
    s₀.reset zeroHost = .ok s₁ ∧ Machine.run (step zeroHost) s₁ [.write 0x14 0x1 4] = .ok s ∧
    s.getPeriphFreq .DMA1 = .ok 0 ∧ s.clktree.getOutputFreq HCLK = 8000000 ∧
    ¬ s.FollowsHeader .AHBENR (.DMA1, 0) 0x1 := by
  obtain ⟨s₀, s₁, s, h₀, h₁, hs, -, href⟩ := exists_write
    (show (RccSpec.powerOn zeroHost 8000000 32768).write zeroHost 0x14 0x1 4 = some _ from rfl)
  have h : Machine.run (step zeroHost) s₁ [.write 0x14 0x1 4] = .ok s :=
    Machine.run_cons_ok.2 ⟨s, hs, rfl⟩
  have hdma : s.getPeriphFreq .DMA1 = .ok 0 := by
    show Except.ok (s.clktree.getOutputFreq 38) = _
    rw [href.getOutputFreq (show 38 < CLK_COUNT by decide),
      RccSpec.freq_header (R := .AHBENR) (p := (.DMA1, 0)) href.ordered (by decide) rfl]
    rfl
  have hbus : s.clktree.getOutputFreq HCLK = 8000000 := by
    have hwf := ((RccSpec.inv_powerOn 32768).step (o := .write 0x14 0x1 4)
      (show (RccSpec.powerOn zeroHost 8000000 32768).write zeroHost 0x14 0x1 4 = some _ from rfl)).wf
    have hpath : PathEnabled s.toRccRegs s.clktree.isEnabled :=
      href.pathEnabled.2 (by unfold PathEnabled; decide)
    rw [href.getOutputFreq (show HCLK < CLK_COUNT by decide)]
    refine BitVec.eq_of_toNat_eq ((RccSpec.freq_hclk href.ordered hwf).trans ?_)
    rw [RccSpec.freq_sysclk href.ordered hwf rfl (href.pathEnabled.1 hpath) (by decide)]
    rfl
  refine ⟨s₀, s₁, s, h₀, h₁, h, hdma, hbus, fun hf => ?_⟩
  have hbus' : s.clktree.getOutputFreq EnableReg.AHBENR.bus = 8000000 := hbus
  rw [FollowsHeader, hdma, hbus'] at hf
  exact absurd (Except.ok.inj hf) (by decide)

end Bluepill
