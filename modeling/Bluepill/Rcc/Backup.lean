/-
  The backup domain: `BDCR` and the clock of the RTC.

  The clock should be enabled if the value last written to `BDCR` has `RTCEN` and
  selects an input.  A write that selects none leaves the clock as it is, and so does
  a reset, which writes 0.  So the clock is right along a run exactly if these come
  while it is off (`backup_iff`).
-/
import Bluepill.Rcc.Enable
import Bluepill.Rcc.RoundTrip

namespace Bluepill

open Rcc Stm32Rcc

/-- The field `RTCSEL` of a value. -/
def rtcSel (v : BitVec 32) : BitVec 32 := (v &&& 0x00000300) >>> 8

/-- The value enables the clock of the RTC. -/
def rtcOn (v : BitVec 32) : Bool := v.getLsbD 15 && rtcSel v != 0

/-- The value last written to `BDCR`, if it was `v` before the operation. -/
def bdcrAfter (v : BitVec 32) : Stm32Rcc.Op → BitVec 32
  | .write offset value size => if offset = 0x20 ∧ size = 4 then value.setWidth 32 else v
  | .reset => 0
  | .setPeriphClkIrq _ _ | .setResetFlags _ => v

/-- The value last written to `BDCR` since the first reset. -/
def lastBdcr (l : List Stm32Rcc.Op) : BitVec 32 := l.foldl bdcrAfter 0

theorem lastBdcr_snoc (l : List Stm32Rcc.Op) (o : Stm32Rcc.Op) :
    lastBdcr (l ++ [o]) = bdcrAfter (lastBdcr l) o := by
  rw [lastBdcr, List.foldl_append]
  rfl

/-- `RTCEN`, as the code tests it. -/
theorem shiftRight_and_one (v : BitVec 32) : ((v >>> 15 &&& 0x01) != 0) = v.getLsbD 15 := by
  have hbit := Word.and_twoPow_ne_zero (v >>> 15) (b := 0) (by decide)
  rw [BitVec.getLsbD_ushiftRight] at hbit
  exact Bool.eq_iff_iff.2 (bne_iff_ne.trans hbit)

namespace RccSpec

variable {host : Host} {a b : RccSpec}

/-- What a write to `BDCR` does to the clock. -/
theorem bdcrWrite_RTCCLK (host : Host) (a : RccSpec) (v : BitVec 32) :
    (a.bdcrWrite host v).en RTCCLK = if rtcSel v ≠ 0 then v.getLsbD 15 else a.en RTCCLK := by
  have hlse : Function.update a.en LSECLK (testBIT host v 0) RTCCLK = a.en RTCCLK :=
    Function.update_of_ne (by decide) _ _
  show (if rtcSel v ≠ 0 then _ else _ : ClkId → Bool) RTCCLK = _
  split
  · rw [Function.update_self, shiftRight_and_one]
  · exact hlse

theorem enableReg_RTCCLK (host : Host) (a : RccSpec) (R : EnableReg) (v : BitVec 32) :
    (R.write host a v).en RTCCLK = a.en RTCCLK := by
  have hne : ∀ p ∈ R.periphs, PERIPHCLK p.1 ≠ some RTCCLK := by cases R <;> decide
  cases R <;> exact enable_of_ne hne

theorem reset_RTCCLK (host : Host) (a : RccSpec) : (a.reset host).en RTCCLK = a.en RTCCLK := by
  have hzero : ∀ a : RccSpec, (a.bdcrWrite host 0).en RTCCLK = a.en RTCCLK := fun a =>
    (bdcrWrite_RTCCLK host a 0).trans (if_neg (by decide))
  refine (csrWrite_en _ (show 12 < RTCCLK by decide)).trans ?_
  refine (hzero _).trans ?_
  refine (enableReg_RTCCLK host _ .AHBENR 0).trans ?_
  refine (enableReg_RTCCLK host _ .APB1ENR 0).trans ?_
  refine (enableReg_RTCCLK host _ .APB2ENR 0).trans ?_
  show (a.crWrite host 0x00000083).en RTCCLK = _
  exact crWrite_en _ (show 12 < RTCCLK by decide)

/-- **What the operations do to the clock of the RTC.** -/
theorem step_RTCCLK {o : Stm32Rcc.Op} (hs : a.step host o = some b) :
    (∃ value : BitVec 64, o = .write 0x20 value 4 ∧ b = a.bdcrWrite host (value.setWidth 32)) ∨
    b.en RTCCLK = a.en RTCCLK ∧ ∀ value : BitVec 64, o ≠ .write 0x20 value 4 := by
  cases o with
  | write offset value size =>
    by_cases hw : offset = 0x20 ∧ size = 4
    · obtain ⟨rfl, rfl⟩ := hw
      exact .inl ⟨value, rfl, (Option.some.inj hs).symm⟩
    refine .inr ⟨?_, ?_⟩
    · simp only [RccSpec.step, RccSpec.write] at hs
      split at hs
      · rename_i hsize
        unfold RccSpec.writew at hs
        split at hs
        case h_1 => cases hs; exact crWrite_en _ (show 12 < RTCCLK by decide)
        case h_2 =>
          unfold RccSpec.cfgrWrite at hs
          split at hs
          · cases hs
          · cases hs; rfl
        case h_3 => cases hs; exact enableReg_RTCCLK host a .AHBENR _
        case h_4 => cases hs; exact enableReg_RTCCLK host a .APB2ENR _
        case h_5 => cases hs; exact enableReg_RTCCLK host a .APB1ENR _
        case h_6 => exact absurd ⟨rfl, hsize⟩ hw
        case h_7 => cases hs; exact csrWrite_en _ (show 12 < RTCCLK by decide)
        case h_8 => cases hs; rfl
      · cases hs; rfl
    · intro v h
      cases h
      exact hw ⟨rfl, rfl⟩
  | reset =>
    cases hs
    exact .inr ⟨reset_RTCCLK host a, fun v h => by cases h⟩
  | setPeriphClkIrq p irq =>
    cases hs
    exact .inr ⟨rfl, fun v h => by cases h⟩
  | setResetFlags flags =>
    cases hs
    exact .inr ⟨rfl, fun v h => by cases h⟩

end RccSpec

/-! ## The device -/

namespace Stm32Rcc

variable {host : Host} {s t u : Stm32Rcc}

/-- The clock of the RTC, and `RTCEN` as it is read, are as the value last written says. -/
structure Backup (s : Stm32Rcc) (v : BitVec 32) : Prop where
  enabled : s.clktree.isEnabled RTCCLK = rtcOn v
  read : (s.read 0x20 4).getLsbD 15 = rtcOn v

/-- The operation does not leave the clock on by mistake: writes to `BDCR` without a selection
    and resets come while the clock is off. -/
def KeepsBackup (s : Stm32Rcc) : Op → Prop
  | .write offset value size => offset = 0x20 → size = 4 → rtcSel (value.setWidth 32) = 0 →
      s.clktree.isEnabled RTCCLK = false
  | .reset => s.clktree.isEnabled RTCCLK = false
  | .setPeriphClkIrq _ _ | .setResetFlags _ => True

/-- The device refines a specification whose fields fit. -/
def Fit (s : Stm32Rcc) : Prop := ∃ a : RccSpec, s.Refines a ∧ a.Fits

theorem Fit.step {o : Op} (h : s.Fit) (hs : s.step host o = .ok t) : t.Fit := by
  obtain ⟨a, ha, hf⟩ := h
  obtain ⟨b, hb, htb⟩ := ha.step hs
  exact ⟨b, htb, hf.step hb⟩

/-- The bit that is read is that of the clock. -/
theorem Fit.read_RTCEN (h : s.Fit) : (s.read 0x20 4).getLsbD 15 = s.clktree.isEnabled RTCCLK := by
  obtain ⟨a, ha, hf⟩ := h
  have hreg : s.RTC_SEL = a.regs.RTC_SEL := (congrArg RccRegs.RTC_SEL ha.regs :)
  have hsel : s.RTC_SEL.toNat < 4 := by rw [hreg]; exact hf.rtcSel
  rw [← (bdcrRead_fields zeroHost hsel).2.2, shiftRight_and_one]
  show (s.bdcrRead.setWidth 64).getLsbD 15 = _
  rw [BitVec.getLsbD_setWidth]
  rfl

theorem Fit.backup_iff_enabled (h : s.Fit) (v : BitVec 32) :
    s.Backup v ↔ s.clktree.isEnabled RTCCLK = rtcOn v :=
  ⟨fun hb => hb.enabled, fun he => ⟨he, h.read_RTCEN.trans he⟩⟩

/-- **From a state with the clock right an operation leads to one exactly if it is one of
    these.** -/
theorem Backup.step_iff {v : BitVec 32} {o : Op} (h : s.Fit) (hb : s.Backup v)
    (hs : s.step host o = .ok t) : t.Backup (bdcrAfter v o) ↔ s.KeepsBackup o := by
  rw [(h.step hs).backup_iff_enabled]
  obtain ⟨a, ha, -⟩ := h
  obtain ⟨b, hstep, htb⟩ := ha.step hs
  have hen : s.clktree.isEnabled RTCCLK = a.en RTCCLK := ha.isEnabled (by decide)
  rw [htb.isEnabled (by decide)]
  rcases RccSpec.step_RTCCLK hstep with ⟨value, rfl, rfl⟩ | ⟨hkeep, hne⟩
  · have hlast : bdcrAfter v (.write 0x20 value 4) = value.setWidth 32 := by simp [bdcrAfter]
    rw [hlast, RccSpec.bdcrWrite_RTCCLK, ← hen]
    unfold rtcOn
    by_cases hsel : rtcSel (value.setWidth 32) = 0
    · rw [if_neg (not_not_intro hsel), hsel, bne_self_eq_false, Bool.and_false]
      exact ⟨fun hoff _ _ _ => hoff, fun hkeeps => hkeeps rfl rfl hsel⟩
    · rw [if_pos hsel, bne_iff_ne.2 hsel, Bool.and_true]
      exact iff_of_true rfl fun _ _ hzero => absurd hzero hsel
  · rw [hkeep, ← hen]
    cases o with
    | write offset value size =>
      have hother : ¬ (offset = 0x20 ∧ size = 4) := by
        rintro ⟨rfl, rfl⟩
        exact hne value rfl
      have hlast : bdcrAfter v (.write offset value size) = v := if_neg hother
      rw [hlast]
      exact iff_of_true hb.enabled fun ho hsize _ => absurd ⟨ho, hsize⟩ hother
    | reset =>
      have hzero : rtcOn (bdcrAfter v .reset) = false := show rtcOn 0 = false by decide
      rw [hzero]
      exact Iff.rfl
    | setPeriphClkIrq p irq => exact iff_of_true hb.enabled trivial
    | setResetFlags w => exact iff_of_true hb.enabled trivial

/-- **The clock of the RTC is as `BDCR` says** all along a run exactly if the writes that select
    no input, and the resets, find it off. -/
theorem backup_iff {oscFreq osc32Freq : BitVec 32} {s₀ s₁ : Stm32Rcc} {l : List Op}
    (h₀ : init oscFreq osc32Freq = .ok s₀) (h₁ : s₀.reset host = .ok s₁)
    (hr : Machine.run (step host) s₁ l = .ok u) :
    (∀ l₁ l₂ t, l = l₁ ++ l₂ → Machine.run (step host) s₁ l₁ = .ok t → t.Backup (lastBdcr l₁)) ↔
      ∀ t o, Machine.Takes (step host) s₁ l t o → t.KeepsBackup o := by
  have hfit : s₁.Fit := ⟨_, refines_powerOn h₀ h₁, RccSpec.fits_powerOn _ _⟩
  have hoff : s₁.Backup (lastBdcr []) := by
    rw [hfit.backup_iff_enabled, (refines_powerOn h₀ h₁).isEnabled (by decide)]
    exact RccSpec.reset_RTCCLK host _
  refine Machine.history_iff_takes (I := Fit) (P := fun l t => t.Backup (lastBdcr l))
    (fun _ _ _ ht hu => ht.step hu) (fun l t o u ht hb hu => ?_) hfit hoff hr
  rw [lastBdcr_snoc]
  exact hb.step_iff ht hu

/-- The LSI is selected for the RTC, and the clock switched on. -/
theorem backup_iff_selected : ∃ s₀ s₁ s, init 8000000 32768 = .ok s₀ ∧ s₀.reset zeroHost = .ok s₁ ∧
    Machine.run (step zeroHost) s₁ [.write 0x20 0x8200 4] = .ok s ∧ s.Backup 0x8200 := by
  obtain ⟨s₀, s₁, s, h₀, h₁, hs, -, -⟩ := exists_write
    (show (RccSpec.powerOn zeroHost 8000000 32768).write zeroHost 0x20 0x8200 4 = some _ from rfl)
  have hrun : Machine.run (step zeroHost) s₁ [.write 0x20 0x8200 4] = .ok s :=
    Machine.run_cons_ok.2 ⟨s, hs, rfl⟩
  refine ⟨s₀, s₁, s, h₀, h₁, hrun, (backup_iff h₀ h₁ hrun).2 ?_ _ [] s rfl hrun⟩
  intro t o ho
  rcases Machine.takes_cons ho with ⟨-, rfl⟩ | ⟨t₁, -, l₁, l₂, hl, -⟩
  · exact fun _ _ hsel => absurd hsel (by decide)
  · simp at hl

/-- The selection is taken back, and the clock stays on. -/
theorem not_backup_deselected : ∃ s₀ s₁ s, init 8000000 32768 = .ok s₀ ∧
    s₀.reset zeroHost = .ok s₁ ∧
    Machine.run (step zeroHost) s₁ [.write 0x20 0x8200 4, .write 0x20 0 4] = .ok s ∧
    rtcOn (lastBdcr [.write 0x20 0x8200 4, .write 0x20 0 4]) = false ∧
    s.clktree.isEnabled RTCCLK = true ∧ (s.read 0x20 4).getLsbD 15 = true := by
  obtain ⟨s₀, s₁, t, h₀, h₁, ht, htr, href⟩ := exists_write
    (show (RccSpec.powerOn zeroHost 8000000 32768).write zeroHost 0x20 0x8200 4 = some _ from rfl)
  obtain ⟨s, hs, hsr, href'⟩ := htr.write href (show RccSpec.write zeroHost _ 0x20 0 4 = some _ from rfl)
  have hen : s.clktree.isEnabled RTCCLK = true := (href'.isEnabled (by decide)).trans rfl
  obtain ⟨a, ha, hf⟩ := hsr.inv (I := RccSpec.Fits) (RccSpec.fits_powerOn _ _) fun _ _ _ hf hb => hf.step hb
  have hread : (s.read 0x20 4).getLsbD 15 = true := (Fit.read_RTCEN ⟨a, ha, hf⟩).trans hen
  exact ⟨s₀, s₁, s, h₀, h₁, Machine.run_cons_ok.2 ⟨t, ht, Machine.run_cons_ok.2 ⟨s, hs, rfl⟩⟩,
    by decide, hen, hread⟩

end Stm32Rcc

end Bluepill
