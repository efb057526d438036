/-
  General purpose I/O ports (`hw/gpio/stm32_gpio.c`).

  A port drives sixteen output lines.  The level last driven on each is part of
  the state; the lines to the external interrupts (`in_irq`) belong to the AFIO,
  which connects them.  An input level counts only as zero or not.

  The operations act on each pin separately.  `Pin` is one pin: its direction,
  its bit in `ODR` and the level of its line.  `pin_step` says what an operation
  does to a pin, and the rest is about pins: a pin shows its bit of `ODR` as long
  as it is not turned from input to output with a stale level
  (`showsOdr_iff`).
-/
import Bluepill.Qemu

namespace Bluepill

def STM32_GPIO_PIN_COUNT : ℕ := 16

/-- `struct Stm32Gpio`; `outIrq` are the levels last driven. -/
structure Stm32Gpio where
  CRL : BitVec 32
  CRH : BitVec 32
  ODR : BitVec 32
  in_ : BitVec 16
  dirMask : BitVec 16
  outIrq : ℕ → Bool

namespace Stm32Gpio

/-- The state before the first reset. -/
def init : Stm32Gpio where
  CRL := 0
  CRH := 0
  ODR := 0
  in_ := 0
  dirMask := 0
  outIrq _ := false

/-- `stm32_gpio_in_trigger`, up to the relayed level. -/
def inTrigger (s : Stm32Gpio) (pin : ℕ) (level : Bool) : Except Fault Stm32Gpio := do
  assert (pin < STM32_GPIO_PIN_COUNT)
  .ok { s with in_ := Word.setBit s.in_ pin level }

/-- `stm32_gpio_get_pin_config`. -/
def getPinConfig (s : Stm32Gpio) (pin : ℕ) : BitVec 8 :=
  let cr64 : BitVec 64 := (s.CRH.setWidth 64 <<< 32) ||| s.CRL.setWidth 64
  (extract64 cr64 (pin * 4) 4).setWidth 8

/-- `stm32_gpio_get_config_bits`. -/
def getConfigBits (s : Stm32Gpio) (pin : ℕ) : BitVec 8 := (s.getPinConfig pin >>> 2) &&& 0x3

/-- `stm32_gpio_get_mode_bits`. -/
def getModeBits (s : Stm32Gpio) (pin : ℕ) : BitVec 8 := s.getPinConfig pin &&& 0x3

/-- `stm32_gpio_update_dir`: mode `0` is input. -/
def updateDir (s : Stm32Gpio) (crIndex : ℕ) : Stm32Gpio :=
  { s with
    dirMask := (List.range' (crIndex * 8) 8).foldl
      (fun m pin => Word.setBit m pin (s.getModeBits pin != 0)) s.dirMask }

/-- The calls of `qemu_set_irq` in `stm32_gpio_GPIOx_ODR_write`: the pin and the level. -/
def odrDriven (s : Stm32Gpio) (newValue : BitVec 32) : List (ℕ × Bool) :=
  let changed : BitVec 16 := (s.ODR ^^^ newValue).setWidth 16
  let changedOut := changed &&& s.dirMask
  if changedOut ≠ 0 then
    ((List.range STM32_GPIO_PIN_COUNT).filter (Word.bitSet changedOut)).map fun pin =>
      (pin, Word.bitSet (newValue &&& 0x0000ffff) pin)
  else []

/-- `stm32_gpio_GPIOx_ODR_write`. -/
def odrWrite (s : Stm32Gpio) (newValue : BitVec 32) : Stm32Gpio :=
  { s with ODR := newValue &&& 0x0000ffff, outIrq := Machine.store s.outIrq (s.odrDriven newValue) }

/-- `stm32_gpio_read`. -/
def read (s : Stm32Gpio) (offset size : ℕ) : Except Fault (BitVec 64) := do
  assert (size = 4)
  match offset with
  | 0x00 => .ok (s.CRL.setWidth 64)
  | 0x04 => .ok (s.CRH.setWidth 64)
  | 0x08 => .ok (s.in_.setWidth 64)
  | 0x0c => .ok (s.ODR.setWidth 64)
  | _ => .ok 0

/-- `stm32_gpio_write`.  Sets take priority over resets. -/
def write (s : Stm32Gpio) (offset : ℕ) (value : BitVec 64) (size : ℕ) : Except Fault Stm32Gpio := do
  assert (size = 4)
  match offset with
  | 0x00 => .ok (updateDir { s with CRL := value.setWidth 32 } 0)
  | 0x04 => .ok (updateDir { s with CRH := value.setWidth 32 } 1)
  | 0x0c => .ok (s.odrWrite (value.setWidth 32))
  | 0x10 =>
    let setMask : BitVec 32 := (value &&& 0x0000ffff).setWidth 32
    let resetMask : BitVec 32 := (~~~(value >>> 16) &&& 0x0000ffff).setWidth 32
    .ok (s.odrWrite ((s.ODR &&& resetMask) ||| setMask))
  | 0x14 =>
    let resetMask : BitVec 32 := (~~~value &&& 0x0000ffff).setWidth 32
    .ok (s.odrWrite (s.ODR &&& resetMask))
  | _ => .ok s  -- `IDR`, `LCKR`, and registers that do not exist

/-- The calls of `qemu_irq_lower` in `stm32_gpio_reset`. -/
def resetDriven : List (ℕ × Bool) := (List.range STM32_GPIO_PIN_COUNT).map fun pin => (pin, false)

/-- `stm32_gpio_reset`.  The input state is left as it is. -/
def reset (s : Stm32Gpio) : Stm32Gpio :=
  { s with
    CRL := 0x44444444
    CRH := 0x44444444
    ODR := 0
    dirMask := 0
    outIrq := Machine.store s.outIrq resetDriven }

/-- What can happen to a port. -/
inductive Op where
  | write (offset : ℕ) (value : BitVec 64) (size : ℕ)
  | inTrigger (pin : ℕ) (level : Bool)
  | reset

def step (s : Stm32Gpio) : Op → Except Fault Stm32Gpio
  | .write offset value size => s.write offset value size
  | .inTrigger pin level => s.inTrigger pin level
  | .reset => .ok s.reset

end Stm32Gpio

/-! ## Pins -/

/-- One pin: its direction, its bit in `ODR` and the level of its line. -/
structure Pin where
  output : Bool
  odr : Bool
  level : Bool

namespace Pin

variable {p : Pin}

def setDir (p : Pin) (output : Bool) : Pin := { p with output }

/-- Write the bit in `ODR`: the line of an output follows a change. -/
def setOdr (p : Pin) (b : Bool) : Pin :=
  { p with odr := b, level := if (p.odr ^^ b) && p.output then b else p.level }

/-- An output has the level of its bit in `ODR`. -/
def ShowsOdr (p : Pin) : Prop := p.output = true → p.level = p.odr

theorem ShowsOdr.setOdr (h : p.ShowsOdr) (b : Bool) : (p.setOdr b).ShowsOdr := by
  intro ho
  have hl := h ho
  simp only [Pin.setOdr] at ho ⊢
  rw [ho, hl]
  cases p.odr <;> cases b <;> rfl

theorem ShowsOdr.setDir (h : p.ShowsOdr) (d : Bool) :
    (p.setDir d).ShowsOdr ↔ (d = true → p.output = false → p.level = p.odr) := by
  constructor
  · intro h' hd _; exact h' hd
  · intro h' hd
    cases ho : p.output with
    | false => exact h' hd ho
    | true => exact h ho

/-- What an operation does to a pin. -/
inductive Op where
  | keep
  | setDir (output : Bool)
  | setOdr (f : Bool → Bool)
  | reset

def step (p : Pin) : Op → Pin
  | .keep => p
  | .setDir output => p.setDir output
  | .setOdr f => p.setOdr (f p.odr)
  | .reset => ⟨false, false, false⟩

/-- Only turning an input into an output can leave a wrong level on the line. -/
theorem ShowsOdr.step (h : p.ShowsOdr) (o : Op) :
    (p.step o).ShowsOdr ↔ (o = .setDir true → p.output = false → p.level = p.odr) := by
  cases o with
  | keep => exact iff_of_true h fun h => by cases h
  | setDir d => rw [Pin.step, h.setDir d]; simp
  | setOdr f => exact iff_of_true (h.setOdr _) fun h => by cases h
  | reset => exact iff_of_true (fun h => by cases h) fun h => by cases h

end Pin

namespace Stm32Gpio

variable {s t : Stm32Gpio} {n : ℕ} {o : Op}

def pin (s : Stm32Gpio) (n : ℕ) : Pin := ⟨s.getModeBits n != 0, s.ODR.getLsbD n, s.outIrq n⟩

/-- The mode of pin `n` in the two configuration registers is not `0`. -/
def modeSet (crl crh : BitVec 32) (n : ℕ) : Bool :=
  if n < 8 then crl.getLsbD (n * 4) || crl.getLsbD (n * 4 + 1)
  else crh.getLsbD (n * 4 - 32) || crh.getLsbD (n * 4 + 1 - 32)

theorem and_three_ne_zero : ∀ x : BitVec 8, ((x &&& 0x3) != 0) = (x.getLsbD 0 || x.getLsbD 1) := by
  decide

theorem getLsbD_getPinConfig (hn : n < 16) {i : ℕ} (hi : i < 4) : (s.getPinConfig n).getLsbD i =
    if n < 8 then s.CRL.getLsbD (n * 4 + i) else s.CRH.getLsbD (n * 4 + i - 32) := by
  simp only [getPinConfig, extract64, BitVec.getLsbD_setWidth, BitVec.getLsbD_or,
    BitVec.getLsbD_shiftLeft, Word.getLsbD_extract _ (show n * 4 + 4 ≤ 64 by omega)]
  by_cases h8 : n < 8
  · have h32 : n * 4 + i < 32 := by omega
    simp [h8, h32, hi, show i < 8 by omega, show n * 4 + i < 64 by omega]
  · have h32 : ¬ n * 4 + i < 32 := by omega
    simp [h8, h32, hi, show i < 8 by omega, show n * 4 + i < 64 by omega, show n * 4 + i - 32 < 64 by omega,
      BitVec.getLsbD_of_ge s.CRL (n * 4 + i) (by omega)]

theorem pin_output (hn : n < 16) : (s.pin n).output = modeSet s.CRL s.CRH n := by
  rw [pin, getModeBits, and_three_ne_zero, getLsbD_getPinConfig hn (by omega),
    getLsbD_getPinConfig hn (by omega), modeSet]
  split <;> rfl

theorem modeSet_low (h : n < 8) (crl crh crh' : BitVec 32) : modeSet crl crh n = modeSet crl crh' n := by
  simp only [modeSet, if_pos h]

theorem modeSet_high (h : ¬ n < 8) (crl crl' crh : BitVec 32) :
    modeSet crl crh n = modeSet crl' crh n := by
  simp only [modeSet, if_neg h]

/-- The direction mask is that of the modes. -/
def Wf (s : Stm32Gpio) : Prop := ∀ n < 16, s.dirMask.getLsbD n = (s.pin n).output

theorem getLsbD_updateDir (s : Stm32Gpio) (crIndex : ℕ) (hn : n < 16) :
    (s.updateDir crIndex).dirMask.getLsbD n =
      if n / 8 = crIndex then (s.pin n).output else s.dirMask.getLsbD n := by
  rw [updateDir, Word.getLsbD_foldl_setBit _ hn]
  have hmem : n ∈ List.range' (crIndex * 8) 8 ↔ n / 8 = crIndex := by
    rw [List.mem_range'_1]; omega
  simp only [hmem]; rfl

/-- **A write to `ODR`, on one pin.** -/
theorem pin_odrWrite (h : s.Wf) (v : BitVec 32) (hn : n < 16) :
    (s.odrWrite v).pin n = (s.pin n).setOdr (v.getLsbD n) := by
  have hodr : (v &&& 0x0000ffff).getLsbD n = v.getLsbD n := Word.getLsbD_and_ffff (by decide) v hn
  have hchg : (((s.ODR ^^^ v).setWidth 16 &&& s.dirMask : BitVec 16)).getLsbD n =
      ((s.ODR.getLsbD n ^^ v.getLsbD n) && (s.pin n).output) := by
    rw [BitVec.getLsbD_and, BitVec.getLsbD_setWidth, BitVec.getLsbD_xor, h n hn]
    simp [hn]
  have hout : (s.odrWrite v).outIrq n =
      if (s.ODR.getLsbD n ^^ v.getLsbD n) && (s.pin n).output then v.getLsbD n else s.outIrq n := by
    unfold odrWrite odrDriven
    dsimp only
    split
    · rw [← Machine.foldl_eq_store, Machine.foldl_update, Word.bitSet_eq _ hn, Word.bitSet_eq _ (by omega), hodr, hchg]
      simp only [List.mem_range, STM32_GPIO_PIN_COUNT, hn, true_and]
    · rename_i h0
      rw [not_not.1 h0, show BitVec.getLsbD (0 : BitVec 16) n = false from BitVec.getLsbD_zero] at hchg
      rw [← hchg]; rfl
  show (⟨s.getModeBits n != 0, (v &&& 0x0000ffff).getLsbD n, (s.odrWrite v).outIrq n⟩ : Pin) = _
  rw [hout, hodr]; rfl

theorem Wf.odrWrite (h : s.Wf) (v : BitVec 32) : (s.odrWrite v).Wf := by
  intro n hn
  rw [pin_odrWrite h v hn]
  exact h n hn

theorem pin_updateDir (s : Stm32Gpio) (crIndex n : ℕ) : (s.updateDir crIndex).pin n = s.pin n := rfl

/-- **A write to a configuration register, on one pin.**  `t` is the port with the
    new value, before the mask is updated. -/
theorem pin_dir {d : ℕ → Bool} {crIndex : ℕ} (h : s.Wf) (hodr : t.ODR = s.ODR)
    (hirq : t.outIrq = s.outIrq) (hmask : t.dirMask = s.dirMask)
    (hdir : ∀ n < 16, (t.pin n).output = if n / 8 = crIndex then d n else (s.pin n).output) :
    (t.updateDir crIndex).Wf ∧ ∀ n < 16, (t.updateDir crIndex).pin n =
      (s.pin n).step (if n / 8 = crIndex then .setDir (d n) else .keep) := by
  refine ⟨fun n hn => ?_, fun n hn => ?_⟩
  · rw [getLsbD_updateDir t crIndex hn, pin_updateDir, hmask, h n hn, hdir n hn]
    split <;> rfl
  · have hpin : t.pin n = (s.pin n).setDir (t.pin n).output := by
      simp only [pin, Pin.setDir, hodr, hirq]
    rw [pin_updateDir, hpin, hdir n hn]
    split <;> rfl

theorem pin_reset (hn : n < 16) : s.reset.pin n = ⟨false, false, false⟩ := by
  have hout : s.reset.outIrq n = false := by
    rw [reset, Machine.store, resetDriven, List.foldl_map]
    refine (Machine.foldl_update (fun _ => true) (fun _ => false) n _ s.outIrq).trans ?_
    rw [if_pos ⟨List.mem_range.2 hn, rfl⟩]
  have hmode : ∀ n < 16, modeSet 0x44444444 0x44444444 n = false := by decide
  have hdir : (s.reset.getModeBits n != 0) = false := (pin_output hn).trans (hmode n hn)
  rw [pin, hdir, hout]
  exact congrArg (fun b => (⟨false, b, false⟩ : Pin)) BitVec.getLsbD_zero

theorem wf_reset (s : Stm32Gpio) : s.reset.Wf := fun n hn => by
  rw [pin_reset hn]; exact BitVec.getLsbD_zero

/-! ## Operations on pins -/

/-- The operation, for pin `n`. -/
def Op.forPin (n : ℕ) : Op → Pin.Op
  | .write 0x00 v _ => if n / 8 = 0 then .setDir (modeSet (v.setWidth 32) 0 n) else .keep
  | .write 0x04 v _ => if n / 8 = 1 then .setDir (modeSet 0 (v.setWidth 32) n) else .keep
  | .write 0x0c v _ => .setOdr fun _ => v.getLsbD n
  | .write 0x10 v _ => .setOdr fun b => (b && !v.getLsbD (n + 16)) || v.getLsbD n
  | .write 0x14 v _ => .setOdr fun b => b && !v.getLsbD n
  | .write _ _ _ => .keep
  | .inTrigger _ _ => .keep
  | .reset => .reset

/-- A write to another register does nothing to the pins. -/
theorem forPin_write_of_ne {offset : ℕ} (h₀ : offset ≠ 0x00) (h₁ : offset ≠ 0x04) (h₂ : offset ≠ 0x0c)
    (h₃ : offset ≠ 0x10) (h₄ : offset ≠ 0x14) {value : BitVec 64} {size : ℕ} :
    (Op.write offset value size).forPin n = .keep := by
  unfold Op.forPin
  split
  case h_1 | h_2 | h_3 | h_4 | h_5 =>
    rename_i heq
    cases heq
    contradiction
  case h_6 | h_7 => rfl
  case h_8 =>
    rename_i heq
    cases heq

/-- **What an operation does to each pin.** -/
theorem pin_step (h : s.Wf) (hs : s.step o = .ok t) :
    t.Wf ∧ ∀ n < 16, t.pin n = (s.pin n).step (o.forPin n) := by
  have hodr : ∀ {v : BitVec 32} {f : ℕ → Bool → Bool}, (∀ n < 16, v.getLsbD n = f n (s.pin n).odr) →
      (s.odrWrite v).Wf ∧ ∀ n < 16, (s.odrWrite v).pin n = (s.pin n).step (.setOdr (f n)) :=
    fun hv => ⟨h.odrWrite _, fun n hn => by rw [pin_odrWrite h _ hn, hv n hn]; rfl⟩
  cases o with
  | write offset value size =>
    obtain ⟨-, hs⟩ := assert_bind.1 hs
    split at hs
    case h_1 =>
      cases hs
      refine pin_dir h rfl rfl rfl fun n hn => ?_
      rw [pin_output hn, pin_output hn]
      split
      · exact modeSet_low (by omega) _ _ _
      · exact modeSet_high (by omega) _ _ _
    case h_2 =>
      cases hs
      refine pin_dir h rfl rfl rfl fun n hn => ?_
      rw [pin_output hn, pin_output hn]
      split
      · exact modeSet_high (by omega) _ _ _
      · exact modeSet_low (by omega) _ _ _
    case h_3 =>
      cases hs
      refine hodr (f := fun n _ => value.getLsbD n) fun n hn => ?_
      simp [show n < 32 by omega]
    case h_4 =>
      cases hs
      refine hodr (f := fun n b => (b && !value.getLsbD (n + 16)) || value.getLsbD n) fun n hn => ?_
      have hset := Word.getLsbD_and_ffff (by decide) value hn
      have hres := Word.getLsbD_and_ffff (by decide) (~~~(value >>> 16)) hn
      rw [BitVec.getLsbD_or, BitVec.getLsbD_and, BitVec.getLsbD_setWidth, BitVec.getLsbD_setWidth]
      erw [hset, hres]
      simp [pin, show n < 32 by omega, show n < 64 by omega, Nat.add_comm]
    case h_5 =>
      cases hs
      refine hodr (f := fun n b => b && !value.getLsbD n) fun n hn => ?_
      have hres := Word.getLsbD_and_ffff (by decide) (~~~value) hn
      rw [BitVec.getLsbD_and, BitVec.getLsbD_setWidth]
      erw [hres]
      simp [pin, show n < 32 by omega, show n < 64 by omega]
    case h_6 =>
      cases hs
      rename_i h₀ h₁ h₂ h₃ h₄
      refine ⟨h, fun n _ => ?_⟩
      rw [forPin_write_of_ne h₀ h₁ h₂ h₃ h₄]
      rfl
  | inTrigger pin level =>
    obtain ⟨-, hs⟩ := assert_bind.1 hs
    cases hs
    exact ⟨h, fun n _ => rfl⟩
  | reset =>
    cases hs
    exact ⟨wf_reset s, fun n hn => pin_reset hn⟩

/-! ## The output levels -/

/-- Every output shows its bit of `ODR`. -/
def ShowsOdr (s : Stm32Gpio) : Prop := ∀ n < 16, (s.pin n).ShowsOdr

/-- No input is made an output, by a write to `CRL` or `CRH`, while the level of
    its line is not its bit of `ODR`. -/
def InStep (s : Stm32Gpio) (o : Op) : Prop :=
  ∀ n < 16, o.forPin n = .setDir true → (s.pin n).output = false → s.outIrq n = s.ODR.getLsbD n

theorem step_showsOdr (h : s.Wf) (hs : s.ShowsOdr) (ho : s.step o = .ok t) :
    t.ShowsOdr ↔ s.InStep o := by
  obtain ⟨-, hpin⟩ := pin_step h ho
  refine forall₂_congr fun n hn => ?_
  rw [hpin n hn, (hs n hn).step]; rfl

end Stm32Gpio

open Stm32Gpio

/-- **When all outputs show their bits of `ODR` throughout a run.** -/
theorem showsOdr_iff {l : List Stm32Gpio.Op} {u : Stm32Gpio}
    (h : Machine.run Stm32Gpio.step Stm32Gpio.init.reset l = .ok u) :
    (∀ t, Machine.Visits Stm32Gpio.step Stm32Gpio.init.reset l t → t.ShowsOdr) ↔
      ∀ t o, Machine.Takes Stm32Gpio.step Stm32Gpio.init.reset l t o → t.InStep o := by
  refine Machine.visits_iff_takes (I := Stm32Gpio.Wf) ?_ ?_ (wf_reset _) ?_ h
  · intro t o u ht hu
    exact (pin_step ht hu).1
  · intro t o u ht hs hu
    exact step_showsOdr ht hs hu
  · intro n hn
    rw [pin_reset hn]; rintro ⟨⟩

/-- Pin 13 made an output first, and then set. -/
theorem showsOdr_iff_configured : ∃ u, Machine.run Stm32Gpio.step Stm32Gpio.init.reset
    [.write 0x04 0x44344444 4, .write 0x10 0x2000 4] = .ok u ∧
    ∀ t, Machine.Visits Stm32Gpio.step Stm32Gpio.init.reset
      [.write 0x04 0x44344444 4, .write 0x10 0x2000 4] t → t.ShowsOdr := by
  refine ⟨_, rfl, (showsOdr_iff rfl).2 fun t o ht => ?_⟩
  rcases Machine.takes_cons ht with ⟨rfl, rfl⟩ | ⟨t₁, -, ht⟩
  · intro n hn _ _
    have hpin := pin_reset (s := Stm32Gpio.init) hn
    exact (congrArg Pin.level hpin).trans (congrArg Pin.odr hpin).symm
  · rcases Machine.takes_cons ht with ⟨-, rfl⟩ | ⟨t₂, -, l₁, l₂, hl, -⟩
    · intro n _ hdir; cases hdir
    · simp at hl

/-- Pin 13 set first, and then made an output: its line stays low. -/
theorem not_showsOdr_pin13 : ∃ u, Machine.run Stm32Gpio.step Stm32Gpio.init.reset
    [.write 0x10 0x2000 4, .write 0x04 0x44344444 4] = .ok u ∧
    u.getModeBits 13 = 3 ∧ u.ODR.getLsbD 13 = true ∧ u.outIrq 13 = false ∧ ¬ u.ShowsOdr := by
  refine ⟨_, rfl, rfl, rfl, rfl, fun h => ?_⟩
  exact absurd (h 13 (by decide) rfl) (by decide)

end Bluepill
