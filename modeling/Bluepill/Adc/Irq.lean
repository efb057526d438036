/-
  The interrupt line of the converter.

  The level is computed from registers that are shifted but not masked, and the flags
  only ever hold `EOC` (`Quiet`), so the level is `EOCIE` with `JEOCIE` in bit 1.  It is
  right unless it changes while `JEOCIE` is set, or a conversion is started, which
  clears `EOC` and does not look at the line: `adc_irq_iff` says for each operation what
  keeps it right.
-/
import Bluepill.Adc
import Bluepill.Rcc.Spec

namespace Bluepill

namespace Stm32Adc

/-- The flags that ask for an interrupt, and their enable bits. -/
def EOC (s : Stm32Adc) : Bool := s.SR.getLsbD 1
def JEOC (s : Stm32Adc) : Bool := s.SR.getLsbD 2
def AWD (s : Stm32Adc) : Bool := s.SR.getLsbD 0
def EOCIE (s : Stm32Adc) : Bool := s.CR1.getLsbD 5
def JEOCIE (s : Stm32Adc) : Bool := s.CR1.getLsbD 7
def AWDIE (s : Stm32Adc) : Bool := s.CR1.getLsbD 6

/-- An enabled flag is set. -/
def requests (s : Stm32Adc) : Bool :=
  s.EOCIE && s.EOC || s.JEOCIE && s.JEOC || s.AWDIE && s.AWD

/-- The line is asserted exactly if an enabled flag is set, and the level kept in the
    device is that of the line, `0` or `1`. -/
def IrqRight (s : Stm32Adc) : Prop :=
  (s.irq ≠ 0 ↔ s.requests = true) ∧ s.currIrqLevel = if s.requests then 1 else 0

/-- What holds in every state: no flag but `EOC` is ever set, and the level kept is the
    one driven. -/
structure Quiet (s : Stm32Adc) : Prop where
  flags : s.SR = 0 ∨ s.SR = 2
  level : s.irq = s.currIrqLevel

variable {env : AdcEnv} {s t : Stm32Adc}

/-! ## The level -/

theorem EOC_of_zero (h : s.SR = 0) : s.EOC = false := by simp [EOC, h]

theorem EOC_of_two (h : s.SR = 2) : s.EOC = true := by simp [EOC, h]

theorem requests_of_quiet (h : s.SR = 0 ∨ s.SR = 2) : s.requests = (s.EOCIE && s.EOC) := by
  rcases h with h | h <;> simp [requests, EOC, JEOC, AWD, h]

theorem irqRight_iff (h : s.Quiet) :
    s.IrqRight ↔ s.currIrqLevel = if s.EOCIE && s.EOC then 1 else 0 := by
  unfold IrqRight
  rw [h.level, requests_of_quiet h.flags]
  constructor
  · exact And.right
  · intro hcurr
    refine ⟨?_, hcurr⟩
    rw [hcurr]
    cases s.EOCIE && s.EOC <;> decide

theorem newIrqLevel_of_zero (h : s.SR = 0) : s.newIrqLevel = 0 := by simp [newIrqLevel, h]

/-- While `EOC` is set the enable bit of another interrupt shows in the level. -/
theorem newIrqLevel_of_two (h : s.SR = 2) :
    s.newIrqLevel = (if s.EOCIE then 1 else 0) ||| if s.JEOCIE then 2 else 0 := by
  have h₁ : s.CR1 >>> 5 &&& 1#32 = if s.EOCIE then 1 else 0 := by
    have h₁ := BitVec.and_twoPow (s.CR1 >>> 5) 0
    rw [show BitVec.twoPow 32 0 = 1#32 from rfl] at h₁
    simpa [EOCIE] using h₁
  have h₂ : s.CR1 >>> 6 &&& 2#32 = if s.JEOCIE then 2 else 0 := by
    have h₂ := BitVec.and_twoPow (s.CR1 >>> 6) 1
    rw [show BitVec.twoPow 32 1 = 2#32 from rfl] at h₂
    simpa [JEOCIE] using h₂
  rw [newIrqLevel, h, show (2 : BitVec 32) >>> 1 = 1#32 from rfl, show (2 : BitVec 32) >>> 2 = 0#32 from rfl,
    show (2 : BitVec 32) >>> 0 = 2#32 from rfl, h₁, h₂]
  simp

@[simp] theorem updateIrq_SR (s : Stm32Adc) : s.updateIrq.SR = s.SR := by
  unfold updateIrq
  split <;> rfl

@[simp] theorem updateIrq_CR1 (s : Stm32Adc) : s.updateIrq.CR1 = s.CR1 := by
  unfold updateIrq
  split <;> rfl

theorem Quiet.updateIrq (h : s.Quiet) : s.updateIrq.Quiet := by
  refine ⟨by simpa using h.flags, ?_⟩
  unfold Stm32Adc.updateIrq
  split
  · rfl
  · exact h.level

/-- Without a flag the level is right after an update. -/
theorem updateIrq_of_zero (h : s.Quiet) (hSR : s.SR = 0) : s.updateIrq.IrqRight := by
  rw [irqRight_iff h.updateIrq, EOC_of_zero (by simpa using hSR), Bool.and_false]
  unfold updateIrq
  rw [newIrqLevel_of_zero hSR]
  split
  · rfl
  · rename_i hcurr
    simpa using hcurr

/-- With `EOC` set it is right if it does not change, or `JEOCIE` is clear. -/
theorem updateIrq_of_two (h : s.Quiet) (hSR : s.SR = 2) {b : Bool}
    (hcurr : s.currIrqLevel = if b then 1 else 0) :
    s.updateIrq.IrqRight ↔ (s.EOCIE ≠ b → s.JEOCIE = false) := by
  rw [irqRight_iff h.updateIrq, EOC_of_two (by simpa using hSR), Bool.and_true]
  have hEOCIE : s.updateIrq.EOCIE = s.EOCIE := by simp [EOCIE]
  rw [hEOCIE]
  unfold updateIrq
  rw [newIrqLevel_of_two hSR, hcurr]
  cases s.EOCIE <;> cases s.JEOCIE <;> cases b <;> simp [hcurr]

/-! ## The operations -/

/-- The part of the state the line depends on. -/
def lines (s : Stm32Adc) : BitVec 32 × BitVec 32 × BitVec 32 × BitVec 32 :=
  (s.SR, s.CR1, s.irq, s.currIrqLevel)

/-- An operation leads from `s` to `t`.  If the line was right it still is exactly if `c`. -/
def Leads (s t : Stm32Adc) (c : Prop) : Prop := t.Quiet ∧ (s.IrqRight → (t.IrqRight ↔ c))

/-- The operations that keep the line right: no change of `EOCIE` while `EOC` and
    `JEOCIE` are set, no end of a conversion with both interrupts enabled, and no start
    of one while the interrupt is pending. -/
def KeepsIrq (s : Stm32Adc) : Op → Prop
  | .write offset value _ =>
    if offset / 4 * 4 = 0x04 then
      s.EOC = true → value.getLsbD 5 ≠ s.EOCIE → value.getLsbD 7 = false
    else if offset / 4 * 4 = 0x08 then value.getLsbD 22 = true → (s.EOCIE && s.EOC) = false
    else True
  | .convTimerExpire => s.convTimer.isSome = true → s.EOC = false → s.EOCIE = true → s.JEOCIE = false
  | .read _ _ | .clkIrq _ | .reset => True

theorem Leads.of_lines (hq : s.Quiet) (h : t.lines = s.lines) : s.Leads t True := by
  obtain ⟨hSR, hCR1, hirq, hcurr⟩ : t.SR = s.SR ∧ t.CR1 = s.CR1 ∧ t.irq = s.irq ∧
      t.currIrqLevel = s.currIrqLevel := by
    simpa [lines] using h
  refine ⟨⟨by rw [hSR]; exact hq.flags, by rw [hirq, hcurr]; exact hq.level⟩, ?_⟩
  have hreq : t.requests = s.requests := by
    simp [requests, EOC, JEOC, AWD, EOCIE, JEOCIE, AWDIE, hSR, hCR1]
  intro hr
  simpa [IrqRight, hirq, hcurr, hreq] using hr

/-- An update with the flags cleared. -/
theorem Leads.updateIrq_zero {r : Stm32Adc} (hq : s.Quiet) (hSR : r.SR = 0)
    (hirq : r.irq = s.irq) (hcurr : r.currIrqLevel = s.currIrqLevel) : s.Leads r.updateIrq True := by
  have hr : r.Quiet := ⟨Or.inl hSR, by rw [hirq, hcurr]; exact hq.level⟩
  exact ⟨hr.updateIrq, fun _ => iff_true_intro (updateIrq_of_zero hr hSR)⟩

theorem srWrite_leads (hq : s.Quiet) {v : BitVec 32} (h : s.srWrite v = .ok t) : s.Leads t True := by
  unfold srWrite at h
  split at h
  · cases h
  split at h
  · cases h
  split at h
  · cases h
  split at h
  · cases h
  split at h
  · cases h
  rename_i h₁ h₂ h₃ h₄ h₅
  cases h
  -- all five flags of the value are clear
  have hv : v &&& 0x1f = 0 := by
    simp only [ne_eq, not_not] at h₁ h₂ h₃ h₄ h₅
    rw [show (0x1f : BitVec 32) = 0x02 ||| 0x04 ||| 0x01 ||| 0x08 ||| 0x10 from rfl]
    simp only [BitVec.and_or_distrib_left, h₁, h₂, h₃, h₄, h₅]
    rfl
  exact Leads.updateIrq_zero hq hv rfl rfl

theorem and_not_two (hq : s.Quiet) : s.SR &&& ~~~ 0x02 = 0 := by
  rcases hq.flags with h | h <;> rw [h] <;> rfl

theorem drRead_leads (hq : s.Quiet) {x : BitVec 32 × Stm32Adc} (h : s.drRead = .ok x) :
    s.Leads x.2 True := by
  unfold drRead at h
  split at h
  · cases h
  split at h
  · cases h
    exact Leads.updateIrq_zero hq (and_not_two hq) rfl rfl
  · cases h

theorem reset_leads (hq : s.Quiet) : s.Leads s.reset True := Leads.updateIrq_zero hq rfl rfl rfl

theorem cr1Write_leads (hq : s.Quiet) (v : BitVec 32) :
    s.Leads (updateIrq { s with CR1 := v })
      (s.EOC = true → v.getLsbD 5 ≠ s.EOCIE → v.getLsbD 7 = false) := by
  have hq' : Quiet { s with CR1 := v } := ⟨hq.flags, hq.level⟩
  refine ⟨hq'.updateIrq, fun hr => ?_⟩
  rcases hq.flags with hSR | hSR
  · rw [EOC_of_zero hSR]
    simpa using updateIrq_of_zero hq' hSR
  · have hcurr := (irqRight_iff hq).1 hr
    rw [EOC_of_two hSR, Bool.and_true] at hcurr
    rw [updateIrq_of_two hq' hSR hcurr, EOC_of_two hSR]
    simp [EOCIE, JEOCIE]

theorem convComplete_leads (hq : s.Quiet) :
    s.Leads (convComplete { s with convTimer := none })
      (s.EOC = false → s.EOCIE = true → s.JEOCIE = false) := by
  have hSR : s.SR ||| 0x02 = 2 := by
    rcases hq.flags with h | h <;> rw [h] <;> rfl
  have hq' : Quiet { s with SR := s.SR ||| 0x02, convTimer := none } := ⟨Or.inr hSR, hq.level⟩
  refine ⟨hq'.updateIrq, fun hr => ?_⟩
  refine (updateIrq_of_two hq' hSR ((irqRight_iff hq).1 hr)).trans ?_
  show (s.EOCIE ≠ (s.EOCIE && s.EOC) → s.JEOCIE = false) ↔ _
  cases s.EOCIE <;> cases s.EOC <;> simp

theorem convert_lines {r : Stm32Adc} {c : ℕ} (h : s.convert env c = .ok r) : r.lines = s.lines := by
  unfold convert at h
  split at h
  · obtain ⟨_, -, h⟩ := Machine.bind_eq_ok.1 h
    cases h
    rfl
  split at h
  · obtain ⟨_, -, h⟩ := Machine.bind_eq_ok.1 h
    cases h
    rfl
  · cases h
    rfl

/-- The start of a conversion clears `EOC`, and leaves the line alone. -/
theorem startConv_lines (h : s.startConv env = .ok t) :
    t.lines = (s.SR &&& ~~~ 0x02, s.CR1, s.irq, s.currIrqLevel) := by
  obtain ⟨c, -, h⟩ := Machine.bind_eq_ok.1 h
  obtain ⟨r, hr, h⟩ := Machine.bind_eq_ok.1 h
  obtain ⟨_, -, h⟩ := Machine.bind_eq_ok.1 h
  cases h
  have hlines := convert_lines hr
  simp only [lines, Prod.mk.injEq] at hlines ⊢
  simp [hlines]

/-- `SWSTART` is one of the bits that `CR2` keeps. -/
theorem swstart_iff (v : BitVec 32) : v &&& 0x00fef90f &&& 0x00400000 ≠ 0 ↔ v.getLsbD 22 = true := by
  rw [BitVec.and_assoc, show (0x00fef90f : BitVec 32) &&& 0x00400000 = BitVec.twoPow 32 22 from rfl]
  exact Word.and_twoPow_ne_zero v (by decide)

theorem cr2Write_leads (hq : s.Quiet) {v : BitVec 32} (h : s.cr2Write env v = .ok t) :
    s.Leads t (v.getLsbD 22 = true → (s.EOCIE && s.EOC) = false) := by
  unfold cr2Write at h
  dsimp only at h
  split at h
  · rename_i hstart
    split at h
    · cases h
    obtain ⟨_, -, h⟩ := Machine.bind_eq_ok.1 h
    obtain ⟨_, -, h⟩ := Machine.bind_eq_ok.1 h
    have hlines := startConv_lines h
    simp only [lines, Prod.mk.injEq] at hlines
    obtain ⟨hSR, -, hirq, hcurr⟩ := hlines
    have hzero : t.SR = 0 := hSR.trans (and_not_two hq)
    have hquiet : t.Quiet := ⟨Or.inl hzero, by rw [hirq, hcurr]; exact hq.level⟩
    refine ⟨hquiet, fun hr => ?_⟩
    rw [irqRight_iff hquiet, EOC_of_zero hzero, Bool.and_false, hcurr, (irqRight_iff hq).1 hr,
      (swstart_iff v).1 hstart]
    cases s.EOCIE && s.EOC <;> decide
  · rename_i hstart
    cases h
    have hoff : ¬ v.getLsbD 22 = true := fun hv => hstart ((swstart_iff v).2 hv)
    obtain ⟨hquiet, hright⟩ := Leads.of_lines (t := { s with CR2 := v &&& 0x00fef90f }) hq rfl
    exact ⟨hquiet, fun hr => (hright hr).trans (iff_of_true trivial fun hv => absurd hv hoff)⟩

theorem updateNsPerSample_lines (h : s.updateNsPerSample env = .ok t) : t.lines = s.lines := by
  obtain ⟨_, -, h⟩ := Machine.bind_eq_ok.1 h
  split at h <;> cases h <;> rfl

theorem read_leads (hq : s.Quiet) {offset size : ℕ} {x : BitVec 64 × Stm32Adc}
    (h : s.read offset size = .ok x) : s.Leads x.2 True := by
  unfold read at h
  dsimp only at h
  split at h
  case h_20 =>
    obtain ⟨y, hy, h⟩ := Machine.bind_eq_ok.1 h
    cases h
    exact drRead_leads hq hy
  all_goals
    cases h
    exact Leads.of_lines hq rfl

theorem write_leads (hq : s.Quiet) {offset size : ℕ} {value : BitVec 64}
    (h : s.writeReg env offset value = .ok t) : s.Leads t (s.KeepsIrq (.write offset value size)) := by
  unfold KeepsIrq
  unfold writeReg at h
  split at h
  case h_1 hoff =>
    simp only [hoff]
    simpa using srWrite_leads hq h
  case h_2 hoff =>
    cases h
    simp only [hoff]
    simpa [BitVec.getLsbD_and] using cr1Write_leads hq ((value &&& 0x00cfffff).setWidth 32)
  case h_3 hoff =>
    simp only [hoff]
    simpa using cr2Write_leads hq h
  case h_12 hoff =>
    simp only [hoff]
    unfold sqr1Write at h
    split at h
    · cases h
    · cases h
      exact Leads.of_lines hq rfl
  case h_16 _ hCR1 hCR2 _ _ _ _ _ _ _ _ _ _ _ _ =>
    cases h
    dsimp only
    rw [if_neg hCR1, if_neg hCR2]
    exact Leads.of_lines hq rfl
  all_goals
    rename_i hoff
    cases h
    simp only [hoff]
    exact Leads.of_lines hq rfl

/-- **What an operation does to the line.** -/
theorem step_leads (hq : s.Quiet) {o : AdcEnv × Op} (h : step s o = .ok t) :
    s.Leads t (s.KeepsIrq o.2) := by
  obtain ⟨env, o⟩ := o
  cases o with
  | read offset size =>
    obtain ⟨x, hx, h⟩ := Machine.bind_eq_ok.1 h
    cases h
    exact read_leads hq hx
  | write offset value size =>
    obtain ⟨_, -, h⟩ := Machine.bind_eq_ok.1 h
    exact write_leads hq h
  | clkIrq level =>
    obtain ⟨_, -, h⟩ := Machine.bind_eq_ok.1 h
    split at h
    · exact Leads.of_lines hq (updateNsPerSample_lines h)
    · cases h
      exact Leads.of_lines hq rfl
  | convTimerExpire =>
    cases h
    unfold KeepsIrq
    split
    · rename_i hpending
      simpa [hpending] using convComplete_leads hq
    · rename_i hpending
      simpa [hpending] using Leads.of_lines hq rfl
  | reset =>
    cases h
    exact reset_leads hq

/-! ## Runs -/

theorem init_lines {periph : Periph} (h : init env periph = .ok s) :
    s.lines = (reset (powerOn periph)).lines := by
  obtain ⟨_, -, h⟩ := Machine.bind_eq_ok.1 h
  cases h
  rfl

theorem init_right {periph : Periph} (h : init env periph = .ok s) : s.Quiet ∧ s.IrqRight := by
  have hq : (powerOn periph).Quiet := ⟨Or.inl rfl, rfl⟩
  have hr : (powerOn periph).IrqRight := by
    rw [irqRight_iff hq, EOC_of_zero rfl, Bool.and_false]
    rfl
  obtain ⟨hq', hr'⟩ := reset_leads hq
  obtain ⟨hq'', hr''⟩ := Leads.of_lines hq' (init_lines h)
  exact ⟨hq'', (hr'' ((hr' hr).2 trivial)).2 trivial⟩

/-- **The interrupt line of the converter** is right along a run exactly if no operation
    changes the level while `JEOCIE` is set, and no conversion is started while the
    interrupt is pending. -/
theorem adc_irq_iff {periph : Periph} {l : List (AdcEnv × Op)} {u : Stm32Adc}
    (hs : init env periph = .ok s) (h : Machine.run step s l = .ok u) :
    (∀ t, Machine.Visits step s l t →
      (t.irq ≠ 0 ↔ t.requests = true) ∧ t.currIrqLevel = if t.requests then 1 else 0) ↔
      ∀ t o, Machine.Takes step s l t o → t.KeepsIrq o.2 := by
  obtain ⟨hq, hr⟩ := init_right hs
  exact Machine.visits_iff_takes (I := Quiet) (fun _ _ _ hq h => (step_leads hq h).1)
    (fun _ _ _ hq hr h => (step_leads hq h).2 hr) hq hr h

/-! ## ADC1 in use -/

instance (s : Stm32Adc) : (o : Op) → Decidable (s.KeepsIrq o)
  | .write offset _ _ => inferInstanceAs (Decidable (ite (offset / 4 * 4 = 0x04) _ (ite _ _ _)))
  | .convTimerExpire => inferInstanceAs (Decidable (_ → _ → _ → _))
  | .read _ _ | .clkIrq _ | .reset => .isTrue trivial

/-- A board whose ports are analog inputs. -/
def analogEnv (rcc : Stm32Rcc) : AdcEnv where
  rcc := rcc
  gpio _ := Stm32Gpio.init
  now := 0
  rand _ := 0
  wave := 1024

/-- ADC1 on that board, with oscillators of 8 MHz. -/
@[irreducible] def board : Except Fault (Stm32Rcc × Stm32Adc) := do
  let rcc ← Stm32Rcc.init 8000000 32768
  let rcc ← rcc.reset zeroHost
  let s ← init (analogEnv rcc) .ADC1
  .ok (rcc, s)

theorem board_ok {x : Stm32Rcc × Stm32Adc} (h : board = .ok x) :
    Stm32Rcc.Reachable zeroHost 8000000 32768 x.1 ∧ init (analogEnv x.1) .ADC1 = .ok x.2 := by
  unfold board at h
  obtain ⟨rcc₀, h₀, h⟩ := Machine.bind_eq_ok.1 h
  obtain ⟨rcc, h₁, h⟩ := Machine.bind_eq_ok.1 h
  obtain ⟨s, hs, h⟩ := Machine.bind_eq_ok.1 h
  cases h
  exact ⟨⟨rcc₀, rcc, [], h₀, h₁, rfl⟩, hs⟩

/-- A conversion of channel 0 with the interrupt enabled. -/
def conversion (rcc : Stm32Rcc) : List (AdcEnv × Op) :=
  [(analogEnv rcc, .write 0x04 0x20 4), (analogEnv rcc, .write 0x08 0x00400001 4),
    (analogEnv rcc, .convTimerExpire)]

/-- The end of the conversion raises the line. -/
theorem adc_irq_iff_conversion : ∃ rcc s u, Stm32Rcc.Reachable zeroHost 8000000 32768 rcc ∧
    init (analogEnv rcc) .ADC1 = .ok s ∧ Machine.run step s (conversion rcc) = .ok u ∧
    u.requests = true ∧ u.irq ≠ 0 ∧ u.currIrqLevel = 1 := by
  have hboard : Machine.Post (fun x => Machine.Meets step (fun t o => t.KeepsIrq o.2) x.2 (conversion x.1) ∧
      Machine.Post (fun u => u.requests = true) (fun _ => False)
        (Machine.run step x.2 (conversion x.1))) (fun _ => False) board := by
    decide +kernel
  obtain ⟨⟨rcc, s⟩, hx, hmeets, hrun⟩ := Machine.post_ok.1 hboard
  obtain ⟨hrcc, hs⟩ := board_ok hx
  obtain ⟨u, hu, hreq⟩ := Machine.post_ok.1 hrun
  have hright := (adc_irq_iff hs hu).2 hmeets.takes u ⟨_, [], by simp, hu⟩
  refine ⟨rcc, s, u, hrcc, hs, hu, hreq, hright.1.2 hreq, ?_⟩
  simpa [hreq] using hright.2

/-- A second conversion is started while the interrupt is pending: `EOC` is clear, and
    the line stays up. -/
theorem not_adc_irq_restart : ∃ rcc s u, Stm32Rcc.Reachable zeroHost 8000000 32768 rcc ∧
    init (analogEnv rcc) .ADC1 = .ok s ∧
    Machine.run step s (conversion rcc ++ [(analogEnv rcc, .write 0x08 0x00400001 4)]) = .ok u ∧
    u.requests = false ∧ u.irq = 1 := by
  have hboard : Machine.Post (fun x => Machine.Post (fun u => u.requests = false ∧ u.irq = 1)
      (fun _ => False) (Machine.run step x.2
        (conversion x.1 ++ [(analogEnv x.1, .write 0x08 0x00400001 4)]))) (fun _ => False) board := by
    decide +kernel
  obtain ⟨⟨rcc, s⟩, hx, hrun⟩ := Machine.post_ok.1 hboard
  obtain ⟨u, hu, hreq, hirq⟩ := Machine.post_ok.1 hrun
  exact ⟨rcc, s, u, (board_ok hx).1, (board_ok hx).2, hu, hreq, hirq⟩

end Stm32Adc

end Bluepill
