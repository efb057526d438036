/-
  Writes to one half of a register of the converter.

  The region allows accesses of two bytes.  A read takes the half at its address out of the
  register.  A write looks neither at the size nor at the low bits of the address: it stores
  its value in the low half, and clears the high half.

  So a write changes only its half if there was nothing in the high half, and one to the high
  half only if it stores nothing there and leaves the low half as it was (`half_write_iff`).
-/
import Bluepill.Adc.Irq

namespace Bluepill

open Rcc
open Word (Half)

namespace Stm32Adc

/-! ## The registers that hold a configuration -/

/-- The registers whose writes store the value and do nothing else, but for the interrupt. -/
inductive ConfReg where
  | CR1 | SMPR1 | SMPR2 | JOFR1 | JOFR2 | JOFR3 | JOFR4 | HTR | LTR | SQR2 | SQR3 | JSQR

namespace ConfReg

def offset : ConfReg → ℕ
  | CR1 => 0x04 | SMPR1 => 0x0c | SMPR2 => 0x10
  | JOFR1 => 0x14 | JOFR2 => 0x18 | JOFR3 => 0x1c | JOFR4 => 0x20
  | HTR => 0x24 | LTR => 0x28 | SQR2 => 0x30 | SQR3 => 0x34 | JSQR => 0x38

/-- The bits of the register that exist. -/
def mask : ConfReg → BitVec 32
  | CR1 => 0x00cfffff | SMPR1 => 0x00ffffff | SMPR2 => 0x3fffffff
  | JOFR1 | JOFR2 | JOFR3 | JOFR4 => 0x00000fff
  | HTR | LTR => 0x00000fff | SQR2 | SQR3 => 0x3fffffff | JSQR => 0x003fffff

/-- What a write does after it has stored its value. -/
def after : ConfReg → Stm32Adc → Stm32Adc
  | CR1, s => s.updateIrq
  | _, s => s

end ConfReg

def conf (s : Stm32Adc) : ConfReg → BitVec 32
  | .CR1 => s.CR1 | .SMPR1 => s.SMPR1 | .SMPR2 => s.SMPR2
  | .JOFR1 => s.JOFR1 | .JOFR2 => s.JOFR2 | .JOFR3 => s.JOFR3 | .JOFR4 => s.JOFR4
  | .HTR => s.HTR | .LTR => s.LTR | .SQR2 => s.SQR2 | .SQR3 => s.SQR3 | .JSQR => s.JSQR

def setConf (s : Stm32Adc) (r : ConfReg) (v : BitVec 32) : Stm32Adc :=
  match r with
  | .CR1 => { s with CR1 := v }
  | .SMPR1 => { s with SMPR1 := v }
  | .SMPR2 => { s with SMPR2 := v }
  | .JOFR1 => { s with JOFR1 := v }
  | .JOFR2 => { s with JOFR2 := v }
  | .JOFR3 => { s with JOFR3 := v }
  | .JOFR4 => { s with JOFR4 := v }
  | .HTR => { s with HTR := v }
  | .LTR => { s with LTR := v }
  | .SQR2 => { s with SQR2 := v }
  | .SQR3 => { s with SQR3 := v }
  | .JSQR => { s with JSQR := v }

variable {env : AdcEnv} {s t : Stm32Adc}

theorem writeReg_conf (s : Stm32Adc) (r : ConfReg) (h : Half) (value : BitVec 64) :
    s.writeReg env (r.offset + h.offset) value =
      .ok (r.after (s.setConf r ((value &&& r.mask.setWidth 64).setWidth 32))) := by
  cases r <;> cases h <;> rfl

theorem read_conf (s : Stm32Adc) (r : ConfReg) (h : Half) :
    s.read (r.offset + h.offset) 2 = .ok ((h.of (s.conf r)).setWidth 64, s) := by
  have hread : s.read (r.offset + h.offset) 2 =
      .ok (extract64 ((s.conf r).setWidth 64) h.start 16, s) := by
    cases r <;> cases h <;> rfl
  rw [hread, extract64, h.extract_eq]

theorem conf_after (s : Stm32Adc) (r r' : ConfReg) : (r.after s).conf r' = s.conf r' := by
  cases r with
  | CR1 =>
    change s.updateIrq.conf r' = s.conf r'
    unfold updateIrq
    split <;> cases r' <;> rfl
  | _ => rfl

theorem conf_setConf (s : Stm32Adc) (r : ConfReg) (v : BitVec 32) : (s.setConf r v).conf r = v := by
  cases r <;> rfl

/-- **A write of two bytes** stores them in the low half, whatever half it is for. -/
theorem write_conf (hclk : (PERIPHCLK s.periph).isSome) (r : ConfReg) (h : Half) (v : BitVec 16) :
    s.write env (r.offset + h.offset) (v.setWidth 64) =
      .ok (r.after (s.setConf r (v.setWidth 32 &&& r.mask))) := by
  have hvalue : (v.setWidth 64 &&& r.mask.setWidth 64).setWidth 32 = v.setWidth 32 &&& r.mask := by
    rw [BitVec.setWidth_and, Word.setWidth_setWidth_32, BitVec.setWidth_setWidth_of_le v (by decide)]
  rw [write, Stm32Rcc.checkPeriphClk, assert_of hclk, Machine.ok_bind, writeReg_conf, hvalue]

/-! ## Writes to a half -/

/-- From `s` to `t`, the half `h` of the register `r` became `v` on the bits that exist: a read
    gives it, and the other half, the other registers and the rest of the device, but for the
    interrupt, are as they were. -/
structure WritesHalf (s t : Stm32Adc) (r : ConfReg) (h : Half) (v : BitVec 16) : Prop where
  written : t.read (r.offset + h.offset) 2 = .ok ((v &&& h.of r.mask).setWidth 64, t)
  other : (t.read (r.offset + h.other.offset) 2).map Prod.fst =
    (s.read (r.offset + h.other.offset) 2).map Prod.fst
  rest : { t.setConf r (s.conf r) with irq := s.irq, currIrqLevel := s.currIrqLevel } = s

/-- The register `r` of `s` can take `v` in its half `h`. -/
def TakesHalf (s : Stm32Adc) (r : ConfReg) (v : BitVec 16) : Half → Prop
  | .low => Half.high.of (s.conf r) = 0
  | .high => v &&& Half.high.of r.mask = 0 ∧ Half.low.of (s.conf r) = v &&& Half.low.of r.mask

theorem rest_after (s : Stm32Adc) (r : ConfReg) (v : BitVec 32) :
    { (r.after (s.setConf r v)).setConf r (s.conf r) with
      irq := s.irq, currIrqLevel := s.currIrqLevel } = s := by
  cases r with
  | CR1 =>
    change { (updateIrq { s with CR1 := v }).setConf .CR1 s.CR1 with
      irq := s.irq, currIrqLevel := s.currIrqLevel } = s
    unfold updateIrq
    split <;> rfl
  | _ => rfl

/-- The reads, as statements about the halves of the register. -/
theorem writesHalf_iff {r : ConfReg} {h : Half} {v : BitVec 16} :
    WritesHalf s t r h v ↔
      h.of (t.conf r) = v &&& h.of r.mask ∧ h.other.of (t.conf r) = h.other.of (s.conf r) ∧
      { t.setConf r (s.conf r) with irq := s.irq, currIrqLevel := s.currIrqLevel } = s := by
  constructor
  · rintro ⟨hw, ho, hr⟩
    rw [read_conf] at hw
    rw [read_conf, read_conf] at ho
    exact ⟨(Word.setWidth_inj (by decide)).1 (congrArg Prod.fst (Except.ok.inj hw)),
      (Word.setWidth_inj (by decide)).1 (Except.ok.inj ho), hr⟩
  · rintro ⟨hw, ho, hr⟩
    refine ⟨?_, ?_, hr⟩
    · rw [read_conf, hw]
    · rw [read_conf, read_conf, ho]
      rfl

end Stm32Adc

open Stm32Adc

/-- **When a write of two bytes changes only its half of a register.** -/
theorem half_write_iff (env : AdcEnv) {s : Stm32Adc} (hclk : (PERIPHCLK s.periph).isSome)
    (r : ConfReg) (h : Half) (v : BitVec 16) :
    ∃ t, s.write env (r.offset + h.offset) (v.setWidth 64) = .ok t ∧
      (WritesHalf s t r h v ↔ s.TakesHalf r v h) := by
  refine ⟨_, write_conf hclk r h v, ?_⟩
  rw [writesHalf_iff, conf_after, conf_setConf]
  have hlow : Half.low.of (v.setWidth 32 &&& r.mask) = v &&& Half.low.of r.mask := by
    rw [Half.of_and, Half.low_of_setWidth]
  have hhigh : Half.high.of (v.setWidth 32 &&& r.mask) = 0 := by
    rw [Half.of_and, Half.high_of_setWidth]
    exact BitVec.zero_and
  cases h with
  | low =>
    constructor
    · rintro ⟨-, ho, -⟩
      exact ho.symm.trans hhigh
    · intro hs
      exact ⟨hlow, hhigh.trans hs.symm, rest_after s r _⟩
  | high =>
    constructor
    · rintro ⟨hw, ho, -⟩
      exact ⟨hw.symm.trans hhigh, ho.symm.trans hlow⟩
    · rintro ⟨hw, ho⟩
      exact ⟨hhigh.trans hw.symm, hlow.trans ho.symm, rest_after s r _⟩

/-- A write to the low half of `SMPR2` whose high half is clear. -/
theorem half_write_iff_smpr2 : ∃ rcc t, Stm32Rcc.Reachable zeroHost 8000000 32768 rcc ∧
    ({ powerOn .ADC1 with SMPR2 := 0x1234 } : Stm32Adc).write (analogEnv rcc) 0x10 0x4321 = .ok t ∧
    WritesHalf { powerOn .ADC1 with SMPR2 := 0x1234 } t .SMPR2 .low 0x4321 := by
  obtain ⟨rcc, hrcc⟩ := Stm32Rcc.exists_reachable zeroHost 8000000 32768
  obtain ⟨t, ht, hiff⟩ := half_write_iff (analogEnv rcc)
    (s := { powerOn .ADC1 with SMPR2 := 0x1234 }) rfl .SMPR2 .low 0x4321
  exact ⟨rcc, t, hrcc, ht, hiff.2 rfl⟩

/-- The sample times of channels 0 to 9 are set to the longest.  A write to the low half of
    `SMPR2` clears the high half; one to the high half goes to the low half. -/
theorem not_half_write_smpr2 : ∃ rcc, Stm32Rcc.Reachable zeroHost 8000000 32768 rcc ∧
    ∃ s t u, (powerOn .ADC1).write (analogEnv rcc) 0x10 0x3fffffff = .ok s ∧
      s.write (analogEnv rcc) 0x10 0x7fff = .ok t ∧ s.write (analogEnv rcc) 0x12 0x1249 = .ok u ∧
      s.SMPR2 = 0x3fffffff ∧ t.SMPR2 = 0x00007fff ∧ u.SMPR2 = 0x00001249 ∧
      ¬ WritesHalf s t .SMPR2 .low 0x7fff ∧ ¬ WritesHalf s u .SMPR2 .high 0x1249 := by
  obtain ⟨rcc, hrcc⟩ := Stm32Rcc.exists_reachable zeroHost 8000000 32768
  refine ⟨rcc, hrcc, _, _, _, rfl, rfl, rfl, rfl, rfl, rfl, fun h => ?_, fun h => ?_⟩
  · exact absurd (writesHalf_iff.1 h).2.1 (by decide)
  · exact absurd (writesHalf_iff.1 h).1 (by decide)

end Bluepill
