/-
  Writing back what was read.

  The registers `CR`, `CFGR`, `BDCR` and `CSR` are not stored.  A read puts them together
  from the fields and the enable bits of the clocks, and a write takes them apart again.  In
  every reachable state the fields fit in their places (`RccSpec.Fits`), so that the value
  read decodes to the configuration in force; and a call of the clock tree that does not
  change the configuration does nothing (`update_eq_self`).  So the write leaves the whole
  state as it is, notifications included (`write_read`).
-/
import Bluepill.Rcc.Clocks

namespace Bluepill

open Rcc Stm32Rcc

variable {r : RccRegs} {host : Host} {s : Stm32Rcc} {a b : RccSpec} {c : ℕ} {m : Update}

/-! ## Values read -/

/-- `CFGR` decodes to the fields it was put together from. -/
theorem cfgrRegs_cfgrRead (h : r.Wf) : cfgrRegs r (cfgrRead r) = r := by
  obtain ⟨hSW, hMUL, hSRC, hXTPRE, hHPRE, hPPRE1, hPPRE2⟩ := cfgr_fields (toNat_cfgrRead h) h.pllmul
    h.pllxtpre h.pllsrc h.ppre2 h.ppre1 h.hpre h.sw
  have hlow : (cfgrRead r).toNat / 2 ^ 0 % 2 ^ 2 = r.CFGR_SW.toNat := by
    have hN := toNat_cfgrRead h
    have hlt := h.sw
    omega
  have h₁ : extract32 (cfgrRead r) 18 4 = r.CFGR_PLLMUL :=
    BitVec.eq_of_toNat_eq ((Word.toNat_extract _ (by decide)).trans hMUL)
  have h₂ : extract32 (cfgrRead r) 17 1 = r.CFGR_PLLXTPRE :=
    BitVec.eq_of_toNat_eq ((Word.toNat_extract _ (by decide)).trans hXTPRE)
  have h₃ : extract32 (cfgrRead r) 16 1 = r.CFGR_PLLSRC :=
    BitVec.eq_of_toNat_eq ((Word.toNat_extract _ (by decide)).trans hSRC)
  have h₄ : (cfgrRead r &&& 0x00003c00) >>> 11 = r.CFGR_PPRE2 :=
    BitVec.eq_of_toNat_eq ((Word.toNat_and_shiftRight _ _ rfl).trans hPPRE2)
  have h₅ : (cfgrRead r &&& 0x00000700) >>> 8 = r.CFGR_PPRE1 :=
    BitVec.eq_of_toNat_eq ((Word.toNat_and_shiftRight _ _ rfl).trans hPPRE1)
  have h₆ : (cfgrRead r &&& 0x000000f0) >>> 4 = r.CFGR_HPRE :=
    BitVec.eq_of_toNat_eq ((Word.toNat_and_shiftRight _ _ rfl).trans hHPRE)
  have h₇ : (cfgrRead r &&& 0x00000003) >>> 0 = r.CFGR_SW :=
    BitVec.eq_of_toNat_eq ((Word.toNat_and_shiftRight _ _ rfl).trans hlow)
  rw [cfgrRegs, h₁, h₂, h₃, h₄, h₅, h₆, h₇]

theorem testBIT_crRead (host : Host) (s : Stm32Rcc) :
    testBIT host s.crRead 24 = s.clktree.isEnabled PLLCLK ∧
      testBIT host s.crRead 16 = s.clktree.isEnabled HSECLK ∧
      testBIT host s.crRead 0 = s.clktree.isEnabled HSICLK := by
  rw [testBIT_eq host _ (by decide), testBIT_eq host _ (by decide), testBIT_eq host _ (by decide)]
  unfold crRead onBit
  generalize s.clktree.isEnabled PLLCLK = p
  generalize s.clktree.isEnabled HSECLK = q
  generalize s.clktree.isEnabled HSICLK = i
  revert p q i
  decide

theorem bdcrRead_fields (host : Host) (h : s.RTC_SEL.toNat < 4) :
    testBIT host s.bdcrRead 0 = s.clktree.isEnabled LSECLK ∧
      (s.bdcrRead &&& 0x00000300) >>> 8 = s.RTC_SEL ∧
      (s.bdcrRead >>> 15 &&& 0x01 != 0) = s.clktree.isEnabled RTCCLK := by
  rw [testBIT_eq host _ (by decide)]
  unfold bdcrRead onBit
  generalize s.clktree.isEnabled LSECLK = p
  generalize s.clktree.isEnabled RTCCLK = q
  obtain ⟨n, hn, hsel⟩ : ∃ n < 4, s.RTC_SEL = BitVec.ofNat 32 n := ⟨s.RTC_SEL.toNat, h, by simp⟩
  rw [hsel]
  clear hsel
  revert p q n
  decide

theorem testBIT_csrRead (host : Host) (s : Stm32Rcc) :
    testBIT host s.csrRead 0 = s.clktree.isEnabled LSICLK := by
  rw [testBIT_eq host _ (by decide)]
  unfold csrRead onBit
  generalize s.clktree.isEnabled LSICLK = p
  generalize s.CSR_IWDGRSTFb = q
  revert p q
  decide

/-! ## The fields fit in their places -/

structure RccSpec.Fits (a : RccSpec) : Prop where
  wf : a.regs.Wf
  rtcSel : a.regs.RTC_SEL.toNat < 4

theorem RccSpec.fits_powerOn (osc osc32 : BitVec 32) : (powerOn host osc osc32).Fits :=
  ⟨cfgrRegs_wf (r := ⟨osc, osc32, 0, 0, 0, 0, 0, 0, 0, 0, 0, 0, 0, false, false, false, []⟩)
    (v := 0) (by decide), show ((0#32 &&& 0x00000300) >>> 8).toNat < 4 by decide⟩

theorem RccSpec.Fits.step (h : a.Fits) {o : Op} (hs : a.step host o = some b) : b.Fits := by
  obtain ⟨hwf, hsel⟩ : b.regs.Wf ∧ b.regs.RTC_SEL.toNat < 4 := by
    refine step_regs (P := fun r => r.Wf ∧ r.RTC_SEL.toNat < 4) ?_ ?_ ?_ ?_ ⟨h.wf, h.rtcSel⟩ hs
    · exact fun r v hv hr => ⟨cfgrRegs_wf hv, hr.2⟩
    · rintro r v ⟨⟨h₁, h₂, h₃, h₄, h₅, h₆, h₇⟩, -⟩
      exact ⟨⟨h₁, h₂, h₃, h₄, h₅, h₆, h₇⟩,
        Nat.lt_succ_of_le (Word.toNat_and_shiftRight_le v 0x00000300 8)⟩
    all_goals
      rintro r x y z ⟨⟨h₁, h₂, h₃, h₄, h₅, h₆, h₇⟩, hsel⟩
      exact ⟨⟨h₁, h₂, h₃, h₄, h₅, h₆, h₇⟩, hsel⟩
  exact ⟨hwf, hsel⟩

/-! ## Writes -/

namespace Stm32Rcc

theorem Refines.update_eq_self (h : s.Refines a) (ha : Allowed c m)
    (hnode : ((graph a.regs a.en).apply (.update c m)).node c = (graph a.regs a.en).node c) :
    s.update c m = .ok s := by
  have hsync := h.sync
  have hpos : 0 < s.clktree.size := by
    rw [hsync.agrees.size, hsync.size]
    decide
  rw [Stm32Rcc.update, Bluepill.update_eq_self hsync.good hsync.agrees (hsync.valid ha) hnode hpos]
  rfl

/-- To switch a clock as it is. -/
theorem Refines.enabled_eq_self (h : s.Refines a) (hc : Gated c) :
    s.update c (.enabled (s.clktree.isEnabled c)) = .ok s := by
  refine h.update_eq_self hc.1 ?_
  rw [graph_enabled hc, h.isEnabled hc, Function.update_eq_self]

theorem warnIf_false (s : Stm32Rcc) (msg : String) : s.warnIf false msg = s := rfl

theorem Refines.crWrite_crRead (h : s.Refines a) : s.crWrite host s.crRead = .ok s := by
  obtain ⟨hPLL, hHSE, hHSI⟩ := testBIT_crRead host s
  have hPLL' := h.enabled_eq_self (c := PLLCLK) (by decide)
  have hHSE' := h.enabled_eq_self (c := HSECLK) (by decide)
  have hHSI' := h.enabled_eq_self (c := HSICLK) (by decide)
  simp only [Stm32Rcc.crWrite, hPLL, hHSE, hHSI, Bool.and_not_self, Bool.false_and, warnIf_false,
    hPLL', hHSE', hHSI', Machine.ok_bind]

theorem Refines.bdcrWrite_bdcrRead (h : s.Refines a) (hf : a.Fits) :
    s.bdcrWrite host s.bdcrRead = .ok s := by
  have hreg := congrArg RccRegs.RTC_SEL h.regs
  change s.RTC_SEL = a.regs.RTC_SEL at hreg
  obtain ⟨hLSE, hSEL, hEN⟩ := bdcrRead_fields host (s := s) (by rw [hreg]; exact hf.rtcSel)
  have hLSE' := h.enabled_eq_self (c := LSECLK) (by decide)
  have hEN' := h.enabled_eq_self (c := RTCCLK) (by decide)
  have hSEL' : s.update RTCCLK (.selectedInput (s.RTC_SEL - 1).toInt) = .ok s := by
    rw [hreg]
    obtain ⟨hlo, hhi⟩ := rtcSel_range hf.rtcSel
    exact h.update_eq_self ⟨by decide, by decide, hlo, hhi⟩ rfl
  simp only [Stm32Rcc.bdcrWrite, hLSE, hSEL, hEN, hLSE', hSEL', hEN', Machine.ok_bind, ite_self]

theorem Refines.csrWrite_csrRead (h : s.Refines a) : s.csrWrite host s.csrRead = .ok s := by
  rw [Stm32Rcc.csrWrite, testBIT_csrRead]
  exact h.enabled_eq_self (by decide)

/-- The calls of a write to `CFGR`, for the fields that are in force. -/
theorem Refines.cfgr_eq_self (h : s.Refines a) (hwf : s.toRccRegs.Wf) :
    s.update PLLCLK (.scale (pllMultiplier s.CFGR_PLLMUL) 1) = .ok s ∧
      s.update PLLXTPRECLK (.selectedInput s.CFGR_PLLXTPRE.toNat) = .ok s ∧
      s.update PLLCLK (.selectedInput s.CFGR_PLLSRC.toNat) = .ok s ∧
      s.update PCLK2 (.scale 1 (ppreDivisor s.CFGR_PPRE2)) = .ok s ∧
      s.update PCLK1 (.scale 1 (ppreDivisor s.CFGR_PPRE1)) = .ok s ∧
      s.update HCLK (.scale 1 (hpreDivisor s.CFGR_HPRE)) = .ok s ∧
      s.update SYSCLK (.selectedInput s.CFGR_SW.toNat) = .ok s := by
  obtain ⟨regs, en⟩ := a
  obtain rfl : _ = regs := h.regs
  have hinput : ∀ {n k : ℕ}, n < k → -1 ≤ (n : ℤ) ∧ (n : ℤ) < k := by omega
  refine ⟨?_, ?_, ?_, ?_, ?_, ?_, ?_⟩
  · exact h.update_eq_self ⟨by decide, by decide⟩ rfl
  · exact h.update_eq_self ⟨by decide, by decide, hinput hwf.pllxtpre⟩ rfl
  · exact h.update_eq_self ⟨by decide, by decide, hinput hwf.pllsrc⟩ rfl
  · exact h.update_eq_self ⟨by decide, ppreDivisor_ne_zero hwf.ppre2⟩ rfl
  · exact h.update_eq_self ⟨by decide, ppreDivisor_ne_zero hwf.ppre1⟩ rfl
  · exact h.update_eq_self ⟨by decide, hpreDivisor_ne_zero hwf.hpre⟩ rfl
  · exact h.update_eq_self ⟨by decide, by decide, hinput hwf.sw⟩ rfl

theorem Refines.cfgrWrite_cfgrRead (h : s.Refines a) (hf : a.Fits) :
    s.cfgrWrite (cfgrRead s.toRccRegs) false = .ok s := by
  have hwf : s.toRccRegs.Wf := by
    have hwf := hf.wf
    rw [← h.regs] at hwf
    exact ⟨hwf.1, hwf.2, hwf.3, hwf.4, hwf.5, hwf.6, hwf.7⟩
  have hregs := cfgrRegs_cfgrRead hwf
  have hMUL : extract32 (cfgrRead s.toRccRegs) 18 4 = s.CFGR_PLLMUL := congrArg RccRegs.CFGR_PLLMUL hregs
  have hXTPRE : extract32 (cfgrRead s.toRccRegs) 17 1 = s.CFGR_PLLXTPRE :=
    congrArg RccRegs.CFGR_PLLXTPRE hregs
  have hSRC : extract32 (cfgrRead s.toRccRegs) 16 1 = s.CFGR_PLLSRC := congrArg RccRegs.CFGR_PLLSRC hregs
  have hPPRE2 : (cfgrRead s.toRccRegs &&& 0x00003c00) >>> 11 = s.CFGR_PPRE2 :=
    congrArg RccRegs.CFGR_PPRE2 hregs
  have hPPRE1 : (cfgrRead s.toRccRegs &&& 0x00000700) >>> 8 = s.CFGR_PPRE1 :=
    congrArg RccRegs.CFGR_PPRE1 hregs
  have hHPRE : (cfgrRead s.toRccRegs &&& 0x000000f0) >>> 4 = s.CFGR_HPRE :=
    congrArg RccRegs.CFGR_HPRE hregs
  have hSW : (cfgrRead s.toRccRegs &&& 0x00000003) >>> 0 = s.CFGR_SW := congrArg RccRegs.CFGR_SW hregs
  have hle : s.CFGR_PLLMUL ≤ 0xf := Nat.le_of_lt_succ hwf.pllmul
  obtain ⟨h₁, h₂, h₃, h₄, h₅, h₆, h₇⟩ := h.cfgr_eq_self hwf
  simp only [Stm32Rcc.cfgrWrite, hMUL, hXTPRE, hSRC, hPPRE2, hPPRE1, hHPRE, hSW, bne_self_eq_false,
    Bool.and_false, warnIf_false, assert_of hle, Machine.ok_bind, h₁, h₂, h₃, h₄, h₅, h₆, h₇]
  exact if_pos (sw_cases hwf.sw)

/-- **Writing back what was read changes nothing**: no clock, no register, no notification
    and no warning. -/
theorem write_read {oscFreq osc32Freq : BitVec 32} (h : Reachable host oscFreq osc32Freq s)
    {offset : ℕ} (ho : offset ∈ [0x00, 0x04, 0x20, 0x24]) :
    s.write host offset (s.read offset 4) 4 = .ok s := by
  obtain ⟨a, ha, hf⟩ := h.inv (I := RccSpec.Fits) (RccSpec.fits_powerOn _ _) fun _ _ _ hI => hI.step
  simp only [List.mem_cons, List.not_mem_nil, or_false] at ho
  rcases ho with rfl | rfl | rfl | rfl
  · show s.crWrite host ((s.crRead.setWidth 64).setWidth 32) = .ok s
    rw [Word.setWidth_setWidth_32]
    exact ha.crWrite_crRead
  · show s.cfgrWrite (((cfgrRead s.toRccRegs).setWidth 64).setWidth 32) false = .ok s
    rw [Word.setWidth_setWidth_32]
    exact ha.cfgrWrite_cfgrRead hf
  · show s.bdcrWrite host ((s.bdcrRead.setWidth 64).setWidth 32) = .ok s
    rw [Word.setWidth_setWidth_32]
    exact ha.bdcrWrite_bdcrRead hf
  · show s.csrWrite host ((s.csrRead.setWidth 64).setWidth 32) = .ok s
    rw [Word.setWidth_setWidth_32]
    exact ha.csrWrite_csrRead

/-- The PLL is selected as the system clock, and `CFGR` is written back. -/
theorem write_read_cfgr : ∃ s, Reachable zeroHost 8000000 32768 s ∧
    s.write zeroHost 0x04 (s.read 0x04 4) 4 = .ok s ∧ s.CFGR_SW = 2 := by
  obtain ⟨-, -, s, -, -, -, hs, href⟩ := exists_write
    (show (RccSpec.powerOn zeroHost 8000000 32768).write zeroHost 0x04 0x001d0402 4 = some _ from rfl)
  have hsw := congrArg RccRegs.CFGR_SW href.regs
  exact ⟨s, hs, write_read hs (by decide), hsw⟩

end Stm32Rcc

end Bluepill
