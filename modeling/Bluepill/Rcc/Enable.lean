/-
  The clock enable registers.

  The enable bits live in the clock tree; what a register reads back is a copy
  of the last value written, masked.  A history never separates the two in any
  other way (`Inv`): a clock is on exactly when its bit was set in the last value
  written, whether the register keeps that bit or not.

  So writing a register back, with some bits added, switches off the clocks whose
  bits the register does not keep, unless they are among the added ones
  (`keepsEnabled_iff`).
-/
import Bluepill.Rcc.Spec

namespace Bluepill

open Rcc Stm32Rcc

/-- The clock enable registers. -/
inductive EnableReg where
  | APB1ENR | APB2ENR | AHBENR

namespace EnableReg

def offset : EnableReg → ℕ
  | APB1ENR => 0x1c | APB2ENR => 0x18 | AHBENR => 0x14

/-- The clocks of the register and their bit numbers. -/
def periphs : EnableReg → List (Periph × ℕ)
  | APB1ENR => apb1Periphs | APB2ENR => apb2Periphs | AHBENR => ahbPeriphs

/-- The clocks with a bit in the register: the number for the CRC in `AHBENR` is
    not one of a bit. -/
def governed : EnableReg → List (Periph × ℕ)
  | APB1ENR => apb1Periphs | APB2ENR => apb2Periphs | AHBENR => [(.DMA1, 1)]

def value (R : EnableReg) (r : RccRegs) : BitVec 32 :=
  match R with
  | APB1ENR => r.APB1ENR | APB2ENR => r.APB2ENR | AHBENR => r.AHBENR

/-- The bits that the register keeps. -/
def mask : EnableReg → BitVec 32
  | APB1ENR => 0x00005e7d | APB2ENR => 0x0000fffd | AHBENR => 0x0000fffd

/-- The clocks whose bits the register does not keep. -/
def unkept : EnableReg → List (Periph × ℕ)
  | APB1ENR => [(.TIM3, 1), (.UART2, 17), (.UART3, 18), (.UART4, 19), (.UART5, 20)]
  | APB2ENR => []
  | AHBENR => [(.DMA1, 1)]

def write (R : EnableReg) (host : Host) (a : RccSpec) (v : BitVec 32) : RccSpec :=
  match R with
  | APB1ENR => a.apb1enrWrite host v
  | APB2ENR => a.apb2enrWrite host v
  | AHBENR => a.ahbenrWrite host v

variable {R : EnableReg} {p : Periph × ℕ} {c : ℕ} {host : Host} {a : RccSpec} {v : BitVec 32}

theorem governed_clk (hp : p ∈ R.governed) (hc : PERIPHCLK p.1 = some c) : 12 < c ∧ c ≠ RTCCLK := by
  have : ∀ p ∈ R.governed, ∀ c ∈ PERIPHCLK p.1, 12 < c ∧ c ≠ RTCCLK := by cases R <;> decide
  exact this p hp c hc

theorem governed_bit (hp : p ∈ R.governed) : p.2 < 32 := by
  have : ∀ p ∈ R.governed, p.2 < 32 := by cases R <;> decide
  exact this p hp

theorem mem_unkept : p ∈ R.unkept ↔ p ∈ R.governed ∧ R.mask.getLsbD p.2 = false := by
  have h₁ : ∀ p ∈ R.unkept, p ∈ R.governed ∧ R.mask.getLsbD p.2 = false := by cases R <;> decide
  have h₂ : ∀ p ∈ R.governed, R.mask.getLsbD p.2 = false → p ∈ R.unkept := by cases R <;> decide
  exact ⟨h₁ p, fun h => h₂ p h.1 h.2⟩

end EnableReg

/-! ## The enable bits -/

namespace RccSpec

variable {R : EnableReg} {p : Periph × ℕ} {c : ℕ} {host : Host} {a b : RccSpec} {v : BitVec 32}
  {l : List (Periph × ℕ)}

theorem enable_of_ne : ∀ {en : ClkId → Bool}, (∀ p ∈ l, PERIPHCLK p.1 ≠ some c) →
    enable host v l en c = en c := by
  induction l with
  | nil => intro en _; rfl
  | cons q l ih =>
    intro en h
    rw [enable, List.foldl_cons, ← enable, ih fun p hp => h p (by simp [hp])]
    have hq := h q (by simp)
    cases hc : PERIPHCLK q.1 with
    | none => rfl
    | some d =>
      have hd : c ≠ d := by rintro rfl; exact hq hc
      simp only [Function.update_of_ne hd]

/-- A write sets the enable bit of each clock to the bit of the value. -/
theorem enable_of_mem (hc : PERIPHCLK p.1 = some c) : ∀ {en : ClkId → Bool},
    (l.map fun q => PERIPHCLK q.1).Nodup → p ∈ l → enable host v l en c = testBIT host v p.2 := by
  induction l with
  | nil => intro en _ hp; cases hp
  | cons q l ih =>
    intro en hn hp
    rw [List.map_cons, List.nodup_cons] at hn
    rw [enable, List.foldl_cons, ← enable]
    rcases List.mem_cons.1 hp with rfl | hp
    · rw [enable_of_ne, hc]
      · exact Function.update_self c _ en
      · rintro r hr hrc
        exact hn.1 (List.mem_map.2 ⟨r, hr, hrc.trans hc.symm⟩)
    · exact ih hn.2 hp

/-- `v` is the last value written to the register. -/
structure Written (a : RccSpec) (R : EnableReg) (v : BitVec 32) : Prop where
  value : R.value a.regs = v &&& R.mask
  en : ∀ p ∈ R.governed, ∀ c, PERIPHCLK p.1 = some c → a.en c = v.getLsbD p.2

/-- Each register shows, masked, the value that its clocks have. -/
def EnableInv (a : RccSpec) : Prop := ∀ R, ∃ v, a.Written R v

theorem Written.congr (h : a.Written R v) (hv : R.value b.regs = R.value a.regs)
    (he : ∀ p ∈ R.governed, ∀ c, PERIPHCLK p.1 = some c → b.en c = a.en c) : b.Written R v :=
  ⟨hv.trans h.value, fun p hp c hc => (he p hp c hc).trans (h.en p hp c hc)⟩

theorem written_write (host : Host) (a : RccSpec) (R : EnableReg) (v : BitVec 32) :
    (R.write host a v).Written R v := by
  refine ⟨by cases R <;> rfl, fun p hp c hc => ?_⟩
  rw [← testBIT_eq host v (EnableReg.governed_bit hp)]
  cases R
  · exact enable_of_mem hc (by decide) hp
  · exact enable_of_mem hc (by decide) hp
  · exact enable_of_mem hc (by decide) (List.mem_cons_of_mem _ hp)

theorem EnableInv.write (h : a.EnableInv) (R : EnableReg) (v : BitVec 32) :
    (R.write host a v).EnableInv := by
  intro R'
  by_cases hR : R' = R
  · subst hR; exact ⟨v, written_write host a R' v⟩
  · obtain ⟨v', hv'⟩ := h R'
    refine ⟨v', hv'.congr ?_ fun p hp c hc => ?_⟩
    · cases R <;> cases R' <;> first | rfl | exact absurd rfl hR
    · have hne : ∀ p ∈ R'.governed, ∀ q ∈ R.periphs, PERIPHCLK q.1 ≠ PERIPHCLK p.1 := by
        cases R <;> cases R' <;> first | exact absurd rfl hR | decide
      have hne' := hc ▸ hne p hp
      cases R <;> exact enable_of_ne hne'

/-- The other registers leave the enable bits of the governed clocks alone. -/
theorem EnableInv.of_eq (h : a.EnableInv) (hv : ∀ R : EnableReg, R.value b.regs = R.value a.regs)
    (he : ∀ c : ℕ, 12 < c → c ≠ RTCCLK → b.en c = a.en c) : b.EnableInv := by
  intro R
  obtain ⟨v, hR⟩ := h R
  exact ⟨v, hR.congr (hv R) fun p hp c hc =>
    he c (EnableReg.governed_clk hp hc).1 (EnableReg.governed_clk hp hc).2⟩

theorem crWrite_en (v : BitVec 32) (hc : 12 < c) : (a.crWrite host v).en c = a.en c := by
  have hne : c ≠ 0 ∧ c ≠ 2 ∧ c ≠ 8 := by omega
  simp only [RccSpec.crWrite, Function.update_of_ne, ne_eq, hne, not_false_eq_true]

theorem bdcrWrite_en (v : BitVec 32) (hc : 12 < c) (hr : c ≠ RTCCLK) :
    (a.bdcrWrite host v).en c = a.en c := by
  have hne : c ≠ 3 := by omega
  simp only [RccSpec.bdcrWrite]
  split
  · rw [Function.update_of_ne hr, Function.update_of_ne hne]
  · rw [Function.update_of_ne hne]

theorem csrWrite_en (v : BitVec 32) (hc : 12 < c) : (a.csrWrite host v).en c = a.en c :=
  Function.update_of_ne (show c ≠ 1 by omega) _ _

theorem EnableInv.reset (h : a.EnableInv) : (a.reset host).EnableInv := by
  have h₁ : EnableInv { a.crWrite host 0x00000083 with regs := cfgrRegs a.regs 0 } :=
    h.of_eq (fun R => by cases R <;> rfl) fun c hc _ => crWrite_en _ hc
  have h₂ : EnableInv (EnableReg.APB2ENR.write host _ 0) := h₁.write .APB2ENR 0
  have h₃ : EnableInv (EnableReg.APB1ENR.write host _ 0) := h₂.write .APB1ENR 0
  have h₄ : EnableInv (EnableReg.AHBENR.write host _ 0) := h₃.write .AHBENR 0
  refine h₄.of_eq (fun R => ?_) ?_
  · cases R <;> rfl
  · intro c hc hr
    exact (csrWrite_en _ hc).trans (bdcrWrite_en _ hc hr)

theorem enableInv_powerOn (host : Host) (oscFreq osc32Freq : BitVec 32) :
    (powerOn host oscFreq osc32Freq).EnableInv := by
  refine EnableInv.reset fun R => ⟨0, ?_, fun p _ c _ => ?_⟩
  · cases R <;> rfl
  · exact (BitVec.getLsbD_zero).symm

/-- **What the operations do to the enable registers and their clocks.** -/
theorem step_enables {o : Op} (hs : a.step host o = some b) :
    (∃ (R : EnableReg) (value : BitVec 64), o = .write R.offset value 4 ∧
      b = R.write host a (value.setWidth 32)) ∨
    (o = .reset ∧ b = a.reset host) ∨
    ((∀ (R : EnableReg) (value : BitVec 64), o ≠ .write R.offset value 4) ∧ o ≠ .reset ∧
      (∀ R : EnableReg, R.value b.regs = R.value a.regs) ∧
      ∀ c : ℕ, 12 < c → c ≠ RTCCLK → b.en c = a.en c) := by
  cases o with
  | write offset value size =>
    simp only [RccSpec.step, RccSpec.write] at hs
    split at hs
    · rename_i hsize
      subst hsize
      by_cases hR : ∃ R : EnableReg, offset = R.offset
      · obtain ⟨R, rfl⟩ := hR
        refine .inl ⟨R, value, rfl, ?_⟩
        cases R <;> exact (Option.some.inj hs).symm
      · refine .inr (.inr ⟨?_, nofun, ?_⟩)
        · intro R v h
          cases h
          exact hR ⟨R, rfl⟩
        unfold RccSpec.writew at hs
        split at hs
        case h_1 =>
          cases hs
          exact ⟨fun R => rfl, fun c hc _ => crWrite_en _ hc⟩
        case h_2 =>
          unfold RccSpec.cfgrWrite at hs
          split at hs
          · cases hs
          · cases hs
            exact ⟨fun R => by cases R <;> rfl, fun _ _ _ => rfl⟩
        case h_3 => exact absurd ⟨.AHBENR, rfl⟩ hR
        case h_4 => exact absurd ⟨.APB2ENR, rfl⟩ hR
        case h_5 => exact absurd ⟨.APB1ENR, rfl⟩ hR
        case h_6 =>
          cases hs
          exact ⟨fun R => by cases R <;> rfl, fun c hc hr => bdcrWrite_en _ hc hr⟩
        case h_7 =>
          cases hs
          exact ⟨fun R => rfl, fun c hc _ => csrWrite_en _ hc⟩
        case h_8 =>
          cases hs
          exact ⟨fun _ => rfl, fun _ _ _ => rfl⟩
    · rename_i hsize
      cases hs
      refine .inr (.inr ⟨?_, nofun, fun _ => rfl, fun _ _ _ => rfl⟩)
      intro R v h
      cases h
      exact hsize rfl
  | reset =>
    cases hs
    exact .inr (.inl ⟨rfl, rfl⟩)
  | setPeriphClkIrq p irq =>
    cases hs
    exact .inr (.inr ⟨nofun, nofun, fun _ => rfl, fun _ _ _ => rfl⟩)
  | setResetFlags v =>
    cases hs
    exact .inr (.inr ⟨nofun, nofun, fun R => by cases R <;> rfl, fun _ _ _ => rfl⟩)

theorem EnableInv.step (h : a.EnableInv) {o : Op} (hs : a.step host o = some b) : b.EnableInv := by
  rcases step_enables hs with ⟨R, value, -, rfl⟩ | ⟨-, rfl⟩ | ⟨-, -, hv, he⟩
  · exact h.write R _
  · exact h.reset
  · exact h.of_eq hv he

/-- The enable bits after the register is written back with the bits `m` added. -/
theorem EnableInv.readModifyWrite (h : a.EnableInv) (R : EnableReg) (m : BitVec 32) {p : Periph × ℕ}
    (hp : p ∈ R.governed) (hc : PERIPHCLK p.1 = some c) :
    (R.write host a (R.value a.regs ||| m)).en c =
      ((a.en c && R.mask.getLsbD p.2) || m.getLsbD p.2) := by
  obtain ⟨v, hv⟩ := h R
  rw [(written_write host a R _).en p hp c hc, hv.value, hv.en p hp c hc]
  simp only [BitVec.getLsbD_or, BitVec.getLsbD_and]

end RccSpec

/-! ## The device -/

namespace Stm32Rcc

/-- The clock of the peripheral is on. -/
def isOn (s : Stm32Rcc) (p : Periph) : Bool := (PERIPHCLK p).any s.clktree.isEnabled

/-- Read the register, and write the value back with the bits `m` added, as
    `RCC_APB1PeriphClockCmd` does. -/
def readModifyWrite (host : Host) (s : Stm32Rcc) (R : EnableReg) (m : BitVec 32) :
    Except Fault Stm32Rcc :=
  s.write host R.offset (s.read R.offset 4 ||| m.setWidth 64) 4

/-- Adding the bits `m` to the register leaves all its clocks on that were on. -/
def KeepsEnabled (host : Host) (s : Stm32Rcc) (R : EnableReg) (m : BitVec 32) : Prop :=
  ∃ s', s.readModifyWrite host R m = .ok s' ∧ ∀ p ∈ R.governed, s.isOn p.1 → s'.isOn p.1

variable {host : Host} {s : Stm32Rcc} {a : RccSpec}

theorem Refines.isOn (h : s.Refines a) {p : Periph} {c : ℕ} (hc : PERIPHCLK p = some c) :
    s.isOn p = a.en c := by
  rw [Stm32Rcc.isOn, hc, Option.any_some, h.isEnabled (periphClk_gated hc)]

theorem Refines.readModifyWrite (h : s.Refines a) (R : EnableReg) (m : BitVec 32) :
    Reaches (s.readModifyWrite host R m) (R.write host a (R.value a.regs ||| m)) := by
  have hval : (s.read R.offset 4 ||| m.setWidth 64).setWidth 32 = R.value a.regs ||| m := by
    rw [BitVec.setWidth_or, Word.setWidth_setWidth_32, ← h.regs]
    congr 1
    cases R <;> exact Word.setWidth_setWidth_32 _
  have hw : Follows (s.write host R.offset _ 4) _ :=
    h.write R.offset (s.read R.offset 4 ||| m.setWidth 64) 4
  rw [← hval]
  cases R <;> exact hw

end Stm32Rcc

open Stm32Rcc

/-- **When a read-modify-write leaves all clocks on.**  The clocks that are on and
    whose bits the register does not keep have to be among the added ones. -/
theorem keepsEnabled_iff {host : Host} {oscFreq osc32Freq : BitVec 32} {s : Stm32Rcc}
    (h : Stm32Rcc.Reachable host oscFreq osc32Freq s) (R : EnableReg) (m : BitVec 32) :
    s.KeepsEnabled host R m ↔ ∀ p ∈ R.unkept, s.isOn p.1 → m.getLsbD p.2 := by
  obtain ⟨a, ha, hinv⟩ := h.inv (RccSpec.enableInv_powerOn host oscFreq osc32Freq)
    fun _ _ _ hI hs => hI.step hs
  obtain ⟨s', hs', ha'⟩ : Reaches (s.readModifyWrite host R m) _ := ha.readModifyWrite R m
  have hon : ∀ p ∈ R.governed, s'.isOn p.1 = ((s.isOn p.1 && R.mask.getLsbD p.2) || m.getLsbD p.2) := by
    intro p hp
    obtain ⟨c, hc⟩ : ∃ c, PERIPHCLK p.1 = some c := by
      have : ∀ p ∈ R.governed, (PERIPHCLK p.1).isSome := by cases R <;> decide
      exact Option.isSome_iff_exists.1 (this p hp)
    rw [Refines.isOn ha' hc, ha.isOn hc, hinv.readModifyWrite R m hp hc]
  constructor
  · rintro ⟨t, ht, hkeep⟩ p hp hon₁
    cases hs'.symm.trans ht
    obtain ⟨hg, hmask⟩ := EnableReg.mem_unkept.1 hp
    have := hkeep p hg hon₁
    rwa [hon p hg, hmask, Bool.and_false, Bool.false_or] at this
  · intro hm
    refine ⟨s', hs', fun p hp hon₁ => ?_⟩
    rw [hon p hp, hon₁, Bool.true_and]
    cases hmask : R.mask.getLsbD p.2
    · rw [Bool.false_or]; exact hm p (EnableReg.mem_unkept.2 ⟨hp, hmask⟩) hon₁
    · rfl

/-- Enabling TIM2 keeps UART2 on if its bit is added again. -/
theorem keepsEnabled_iff_again : ∃ s, Stm32Rcc.Reachable zeroHost 8000000 32768 s ∧
    s.isOn .UART2 ∧ s.KeepsEnabled zeroHost .APB1ENR 0x20001 := by
  obtain ⟨-, -, s, -, -, -, hs, href⟩ := exists_write
    (show (RccSpec.powerOn zeroHost 8000000 32768).write zeroHost 0x1c 0x20000 4 = some _ from rfl)
  refine ⟨s, hs, (href.isOn rfl).trans rfl, (keepsEnabled_iff hs .APB1ENR 0x20001).2 ?_⟩
  simp only [EnableReg.unkept, List.forall_mem_cons]
  refine ⟨fun h => ?_, fun _ => rfl, fun h => ?_, fun h => ?_, fun h => ?_, by simp⟩
  all_goals rw [href.isOn rfl] at h; cases h

/-- Enabling UART2, and then TIM2 as the firmware library does, switches UART2 off. -/
theorem not_keepsEnabled_uart2 : ∃ s₀ s₁ s s', init 8000000 32768 = .ok s₀ ∧
    s₀.reset zeroHost = .ok s₁ ∧ s₁.write zeroHost 0x1c 0x20000 4 = .ok s ∧
    s.readModifyWrite zeroHost .APB1ENR 0x1 = .ok s' ∧ s.isOn .UART2 = true ∧
    s'.isOn .UART2 = false ∧ ¬ s.KeepsEnabled zeroHost .APB1ENR 0x1 := by
  obtain ⟨s₀, s₁, s, hs₀, hs₁, hs, -, href⟩ := exists_write
    (show (RccSpec.powerOn zeroHost 8000000 32768).write zeroHost 0x1c 0x20000 4 = some _ from rfl)
  obtain ⟨s', hs', href'⟩ : Reaches (s.readModifyWrite zeroHost .APB1ENR 0x1) _ :=
    href.readModifyWrite .APB1ENR 0x1
  have hon : s.isOn .UART2 = true := (href.isOn rfl).trans rfl
  have hoff : s'.isOn .UART2 = false := (Refines.isOn href' rfl).trans rfl
  refine ⟨s₀, s₁, s, s', hs₀, hs₁, hs, hs', hon, hoff, ?_⟩
  rintro ⟨t, ht, hkeep⟩
  cases hs'.symm.trans ht
  exact absurd (hkeep (.UART2, 17) (by decide) hon) (by rw [hoff]; decide)

end Bluepill
