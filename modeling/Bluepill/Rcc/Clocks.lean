/-
  The clocks of the emulator and the clocks the firmware computes.

  `RCC_GetClocksFreq` of the firmware library decodes `CFGR` on its own.  Both
  decoders are brought to numbers: the register reads back as the sum of its
  fields (`toNat_cfgrRead`), and the frequencies of the clock tree are quotients
  of that of the system clock (`RccSpec.freq_hclk`, `RccSpec.freq_pclk1`).  They
  agree on the system clock; the prescalers of the emulator are `2 * (code - 7)`
  and `2 * (code - 3)`, where the firmware has a table of powers of two.
-/
import Bluepill.Rcc.Spec

namespace Bluepill

open Rcc Stm32Rcc Forest

/-! ## The firmware -/

def HSI_VALUE : BitVec 32 := 8000000
def HSE_VALUE : BitVec 32 := 8000000

def APBAHBPrescTable : List ℕ := [0, 0, 0, 0, 1, 2, 3, 4, 1, 2, 3, 4, 6, 7, 8, 9]
def ADCPrescTable : List (BitVec 32) := [2, 4, 6, 8]

/-- `RCC_ClocksTypeDef`. -/
structure RccClocks where
  SYSCLK_Frequency : BitVec 32
  HCLK_Frequency : BitVec 32
  PCLK1_Frequency : BitVec 32
  PCLK2_Frequency : BitVec 32
  ADCCLK_Frequency : BitVec 32

/-- The first part of `RCC_GetClocksFreq`: the frequency of the system clock. -/
def getSysclkFreq (cfgr : BitVec 32) : BitVec 32 :=
  let tmp := cfgr &&& 0x0000000c
  if tmp = 0x00 then HSI_VALUE
  else if tmp = 0x04 then HSE_VALUE
  else if tmp = 0x08 then
    let pllmull := ((cfgr &&& 0x003c0000) >>> 18) + 2
    let pllsource := cfgr &&& 0x00010000
    if pllsource = 0x00 then (HSI_VALUE >>> 1) * pllmull
    else if cfgr &&& 0x00020000 ≠ 0 then (HSE_VALUE >>> 1) * pllmull
    else HSE_VALUE * pllmull
  else HSI_VALUE

/-- `RCC_GetClocksFreq`, for a device that is neither a connectivity line nor a
    value line one. -/
def getClocksFreq (cfgr : BitVec 32) : RccClocks :=
  let presc (tmp : BitVec 32) : ℕ := APBAHBPrescTable.getD tmp.toNat 0
  let sysclk := getSysclkFreq cfgr
  let hclk := sysclk >>> presc ((cfgr &&& 0x000000f0) >>> 4)
  let pclk1 := hclk >>> presc ((cfgr &&& 0x00000700) >>> 8)
  let pclk2 := hclk >>> presc ((cfgr &&& 0x00003800) >>> 11)
  { SYSCLK_Frequency := sysclk
    HCLK_Frequency := hclk
    PCLK1_Frequency := pclk1
    PCLK2_Frequency := pclk2
    ADCCLK_Frequency := pclk2 / ADCPrescTable.getD ((cfgr &&& 0x0000c000) >>> 14).toNat 0 }

/-! ## The register -/

/-- The fields of `CFGR` fit in their places, and the system clock is valid. -/
structure RccRegs.Wf (r : RccRegs) : Prop where
  pllmul : r.CFGR_PLLMUL.toNat < 16
  pllxtpre : r.CFGR_PLLXTPRE.toNat < 2
  pllsrc : r.CFGR_PLLSRC.toNat < 2
  ppre2 : r.CFGR_PPRE2.toNat < 8
  ppre1 : r.CFGR_PPRE1.toNat < 8
  hpre : r.CFGR_HPRE.toNat < 16
  sw : r.CFGR_SW.toNat < 3

variable {r : RccRegs} {en : ℕ → Bool} {host : Host} {s : Stm32Rcc} {a b : RccSpec}

theorem cfgrRegs_wf {v : BitVec 32} (h : v &&& 3 ≠ 3) : (cfgrRegs r v).Wf where
  pllmul := Word.toNat_extract_lt v 18 (by decide)
  pllxtpre := Word.toNat_extract_lt v 17 (by decide)
  pllsrc := Word.toNat_extract_lt v 16 (by decide)
  ppre2 := Nat.lt_succ_of_le (Word.toNat_and_shiftRight_le v 0x00003c00 11)
  ppre1 := Nat.lt_succ_of_le (Word.toNat_and_shiftRight_le v 0x00000700 8)
  hpre := Nat.lt_succ_of_le (Word.toNat_and_shiftRight_le v 0x000000f0 4)
  sw := sw_lt h

/-- `CFGR` reads back as the sum of its fields. -/
theorem toNat_cfgrRead (h : r.Wf) : (cfgrRead r).toNat =
    r.CFGR_PLLMUL.toNat * 2 ^ 18 + r.CFGR_PLLXTPRE.toNat * 2 ^ 17 + r.CFGR_PLLSRC.toNat * 2 ^ 16 +
      r.CFGR_PPRE2.toNat * 2 ^ 11 + r.CFGR_PPRE1.toNat * 2 ^ 8 + r.CFGR_HPRE.toNat * 2 ^ 4 +
      r.CFGR_SW.toNat * 2 ^ 2 + r.CFGR_SW.toNat := by
  obtain ⟨h₁, h₂, h₃, h₄, h₅, h₆, h₇⟩ := h
  have hshl : ∀ {x : BitVec 32} {k n : ℕ}, x.toNat < n → n * 2 ^ k ≤ 2 ^ 32 →
      (x <<< k).toNat = x.toNat * 2 ^ k := by
    intro x k n hx hn
    have : x.toNat * 2 ^ k < n * 2 ^ k := Nat.mul_lt_mul_of_pos_right hx (Nat.two_pow_pos k)
    rw [BitVec.toNat_shiftLeft, Nat.shiftLeft_eq, Nat.mod_eq_of_lt (by omega)]
  rw [cfgrRead, BitVec.or_assoc, BitVec.or_comm (r.CFGR_SW <<< 0)]
  simp only [BitVec.toNat_or, hshl h₁ (show 16 * 2 ^ 18 ≤ 2 ^ 32 by decide),
    hshl h₂ (show 2 * 2 ^ 17 ≤ 2 ^ 32 by decide), hshl h₃ (show 2 * 2 ^ 16 ≤ 2 ^ 32 by decide),
    hshl h₄ (show 8 * 2 ^ 11 ≤ 2 ^ 32 by decide), hshl h₅ (show 8 * 2 ^ 8 ≤ 2 ^ 32 by decide),
    hshl h₆ (show 16 * 2 ^ 4 ≤ 2 ^ 32 by decide), hshl h₇ (show 3 * 2 ^ 0 ≤ 2 ^ 32 by decide),
    hshl h₇ (show 3 * 2 ^ 2 ≤ 2 ^ 32 by decide)]
  rw [← Nat.or_assoc]
  generalize r.CFGR_PLLMUL.toNat = n₁ at *
  generalize r.CFGR_PLLXTPRE.toNat = n₂ at *
  generalize r.CFGR_PLLSRC.toNat = n₃ at *
  generalize r.CFGR_PPRE2.toNat = n₄ at *
  generalize r.CFGR_PPRE1.toNat = n₅ at *
  generalize r.CFGR_HPRE.toNat = n₆ at *
  generalize r.CFGR_SW.toNat = n₇ at *
  rw [Word.or_eq_add (a := n₁ * 2 ^ 18) (k := 18) (by omega) (by omega),
    Word.or_eq_add (a := n₁ * 2 ^ 18 + n₂ * 2 ^ 17) (k := 17) (by omega) (by omega),
    Word.or_eq_add (b := n₄ * 2 ^ 11) (k := 16) (by omega) (by omega),
    Word.or_eq_add (b := n₅ * 2 ^ 8) (k := 11) (by omega) (by omega),
    Word.or_eq_add (b := n₆ * 2 ^ 4) (k := 8) (by omega) (by omega),
    Word.or_eq_add (b := n₇ * 2 ^ 2) (k := 4) (by omega) (by omega),
    Word.or_eq_add (b := n₇ * 2 ^ 0) (k := 2) (by omega) (by omega)]
  omega

/-! ## The frequencies of the clock tree -/

theorem toNat_out {n : Node} (he : n.enabled = true) (hd : n.divisor ≠ 0) (f : BitVec 32) :
    (n.out f).toNat = f.toNat * n.multiplier.toNat / n.divisor.toNat % 2 ^ 32 := by
  have hw : ∀ x : BitVec 16, (x.setWidth 32).toNat = x.toNat := fun x => by
    rw [BitVec.toNat_setWidth, Nat.mod_eq_of_lt (by have := x.isLt; omega)]
  rw [Node.out, if_pos he, toNat_muldiv64_32, hw, hw]
  intro h0
  refine hd (BitVec.eq_of_toNat_eq ?_)
  rw [← hw, h0]; rfl

theorem out_zero {n : Node} {f : BitVec 32} (hd : n.divisor ≠ 0) (h : f = 0 ∨ n.multiplier = 0) :
    n.out f = 0 := by
  by_cases he : n.enabled = true
  · refine BitVec.eq_of_toNat_eq ?_
    rw [toNat_out he hd]
    rcases h with h | h <;> simp [h]
  · exact if_neg he

/-- The frequency of the system clock, in Hz, for oscillators of 8 MHz. -/
def sysclkFreq (r : RccRegs) : ℕ :=
  if r.CFGR_SW.toNat < 2 then 8000000
  else (if r.CFGR_PLLSRC.toNat = 1 ∧ r.CFGR_PLLXTPRE.toNat = 0 then 8000000 else 4000000) *
    (r.CFGR_PLLMUL.toNat + 2)

theorem sysclkFreq_bounds (h : r.Wf) (hm : r.CFGR_PLLMUL.toNat ≠ 15) :
    8000000 ≤ sysclkFreq r ∧ sysclkFreq r ≤ 128000000 := by
  have := h.pllmul
  unfold sysclkFreq
  split
  · omega
  · split <;> omega

/-- The oscillators, and the PLL, that the system clock comes from are on. -/
def PathEnabled (r : RccRegs) (on : ClkId → Bool) : Prop :=
  (r.CFGR_SW = 2 → on PLLCLK = true) ∧
  (r.CFGR_SW = 0 ∨ (r.CFGR_SW = 2 ∧ r.CFGR_PLLSRC = 0) → on HSICLK = true) ∧
  (r.CFGR_SW = 1 ∨ (r.CFGR_SW = 2 ∧ r.CFGR_PLLSRC = 1) → on HSECLK = true)

namespace RccSpec

/-- The frequency of clock `d`, as a number. -/
def freq (a : RccSpec) (d : ℕ) : ℕ := ((graph a.regs a.en).freq d).toNat

variable (ho : Ordered (graph a.regs a.en).sel)
include ho

/-- The frequency of a clock that is on and selects `p`. -/
theorem freq_eq {d p : ℕ} (hsel : (graph a.regs a.en).sel d = some p)
    (he : ((graph a.regs a.en).node d).enabled = true)
    (hd : ((graph a.regs a.en).node d).divisor ≠ 0) :
    a.freq d = a.freq p * ((graph a.regs a.en).node d).multiplier.toNat /
      ((graph a.regs a.en).node d).divisor.toNat % 2 ^ 32 := by
  rw [freq, Graph.freq, flow_child ho hsel, toNat_out he hd]; rfl

/-- The frequency of a clock that is on and divides that of `p`. -/
theorem freq_prescaled {d p : ℕ} (hsel : (graph a.regs a.en).sel d = some p)
    (he : ((graph a.regs a.en).node d).enabled = true)
    (hm : ((graph a.regs a.en).node d).multiplier = 1)
    (hd : ((graph a.regs a.en).node d).divisor ≠ 0) :
    a.freq d = a.freq p / ((graph a.regs a.en).node d).divisor.toNat := by
  have hlt : a.freq p < 2 ^ 32 := ((graph a.regs a.en).freq p).isLt
  rw [freq_eq ho hsel he hd, hm, show (1 : BitVec 16).toNat = 1 from rfl, Nat.mul_one,
    Nat.mod_eq_of_lt (Nat.lt_of_le_of_lt (Nat.div_le_self _ _) hlt)]

omit ho in
theorem freq_source {d : ℕ} {f : BitVec 32} (hd : (graph a.regs a.en).node d = ⟨some f, true, 1, 1, [], -1⟩) :
    a.freq d = f.toNat := by
  rw [freq, Graph.freq, flow_root (by rw [Graph.sel, hd]; rfl), hd,
    toNat_out rfl (show (1 : BitVec 16) ≠ 0 by decide)]
  have := f.isLt
  change f.toNat * 1 / 1 % 2 ^ 32 = f.toNat
  omega

omit ho in
theorem sel_eq {d i : ℕ} (h : ((graph a.regs a.en).node d).selected = i) :
    (graph a.regs a.en).sel d = ((graph a.regs a.en).node d).inputs[i]? := by
  rw [Graph.sel, h, if_pos (by omega), Int.toNat_natCast]

theorem freq_pll (h : a.regs.Wf) (hosc : a.regs.oscFreq = 8000000) (hp : PathEnabled a.regs a.en)
    (hm : a.regs.CFGR_PLLMUL.toNat ≠ 15) (hsw : a.regs.CFGR_SW = 2) :
    a.freq PLLCLK = (if a.regs.CFGR_PLLSRC.toNat = 1 ∧ a.regs.CFGR_PLLXTPRE.toNat = 0 then 8000000
      else 4000000) * (a.regs.CFGR_PLLMUL.toNat + 2) := by
  have hmul : (pllMultiplier a.regs.CFGR_PLLMUL).toNat = a.regs.CFGR_PLLMUL.toNat + 2 := by
    obtain ⟨n, hn, he⟩ : ∃ n < 16, a.regs.CFGR_PLLMUL = BitVec.ofNat 32 n :=
      ⟨a.regs.CFGR_PLLMUL.toNat, h.pllmul, by simp⟩
    rw [he] at hm ⊢
    interval_cases n <;> first | rfl | exact absurd rfl hm
  have hpll : ∀ p, (graph a.regs a.en).sel PLLCLK = some p →
      a.freq PLLCLK = a.freq p * (a.regs.CFGR_PLLMUL.toNat + 2) % 2 ^ 32 := by
    intro p hsel
    rw [freq_eq ho hsel (hp.1 hsw) (show (1 : BitVec 16) ≠ 0 by decide), ← hmul]
    exact congrArg (· % 2 ^ 32) (Nat.div_one _)
  have hsel : (graph a.regs a.en).sel PLLCLK = [HSI_DIV2, PLLXTPRECLK][a.regs.CFGR_PLLSRC.toNat]? :=
    sel_eq rfl
  have hsel' : (graph a.regs a.en).sel PLLXTPRECLK = [HSECLK, HSE_DIV2][a.regs.CFGR_PLLXTPRE.toNat]? :=
    sel_eq rfl
  have hlt := h.pllmul
  obtain h0 | h1 : a.regs.CFGR_PLLSRC.toNat = 0 ∨ a.regs.CFGR_PLLSRC.toNat = 1 := by
    have := h.pllsrc; omega
  · have hsi : a.freq HSICLK = 8000000 := freq_source (f := HSI_FREQ) (by
      change (⟨some HSI_FREQ, a.en HSICLK, 1, 1, [], -1⟩ : Node) = _
      rw [hp.2.1 (.inr ⟨hsw, BitVec.eq_of_toNat_eq h0⟩)])
    have hdiv : a.freq HSI_DIV2 = a.freq HSICLK / 2 :=
      freq_prescaled ho (d := HSI_DIV2) (p := HSICLK) rfl rfl rfl (show (2 : BitVec 16) ≠ 0 by decide)
    rw [hpll HSI_DIV2 (by rw [hsel, h0]; rfl), hdiv, hsi, h0, if_neg (by omega)]
    omega
  · have hse : a.freq HSECLK = 8000000 := freq_source (f := 8000000) (by
      change (⟨some a.regs.oscFreq, a.en HSECLK, 1, 1, [], -1⟩ : Node) = _
      rw [hp.2.2 (.inr ⟨hsw, BitVec.eq_of_toNat_eq h1⟩), hosc])
    have hdiv : a.freq HSE_DIV2 = a.freq HSECLK / 2 :=
      freq_prescaled ho (d := HSE_DIV2) (p := HSECLK) rfl rfl rfl (show (2 : BitVec 16) ≠ 0 by decide)
    have hxt : ∀ p, (graph a.regs a.en).sel PLLXTPRECLK = some p →
        a.freq PLLXTPRECLK = a.freq p / 1 := fun p hs =>
      freq_prescaled ho hs rfl rfl (show (1 : BitVec 16) ≠ 0 by decide)
    rw [hpll PLLXTPRECLK (by rw [hsel, h1]; rfl), h1]
    obtain hx | hx : a.regs.CFGR_PLLXTPRE.toNat = 0 ∨ a.regs.CFGR_PLLXTPRE.toNat = 1 := by
      have := h.pllxtpre; omega
    · rw [hxt HSECLK (by rw [hsel', hx]; rfl), hse, hx, if_pos ⟨rfl, rfl⟩]; omega
    · rw [hxt HSE_DIV2 (by rw [hsel', hx]; rfl), hdiv, hse, hx, if_neg (by omega)]
      change 4000000 * _ % _ = _
      omega

theorem freq_sysclk (h : a.regs.Wf) (hosc : a.regs.oscFreq = 8000000) (hp : PathEnabled a.regs a.en)
    (hm : a.regs.CFGR_PLLMUL.toNat ≠ 15) : a.freq SYSCLK = sysclkFreq a.regs := by
  have hsys : ∀ p, (graph a.regs a.en).sel SYSCLK = some p → a.freq SYSCLK = a.freq p := by
    intro p hs
    rw [freq_prescaled ho hs rfl rfl (show (1 : BitVec 16) ≠ 0 by decide)]
    exact Nat.div_one _
  have hsel : (graph a.regs a.en).sel SYSCLK = [HSICLK, HSECLK, PLLCLK][a.regs.CFGR_SW.toNat]? :=
    sel_eq rfl
  unfold sysclkFreq
  rcases sw_cases h.sw with hsw | hsw | hsw <;> rw [hsw] at hsel ⊢
  · rw [hsys HSICLK hsel]
    refine freq_source (f := HSI_FREQ) ?_
    change (⟨some HSI_FREQ, a.en HSICLK, 1, 1, [], -1⟩ : Node) = _
    rw [hp.2.1 (.inl hsw)]
  · rw [hsys HSECLK hsel]
    refine freq_source (f := 8000000) ?_
    change (⟨some a.regs.oscFreq, a.en HSECLK, 1, 1, [], -1⟩ : Node) = _
    rw [hp.2.2 (.inl hsw), hosc]
  · rw [hsys PLLCLK hsel, freq_pll ho h hosc hp hm hsw]; rfl

theorem freq_hclk (h : a.regs.Wf) :
    a.freq HCLK = a.freq SYSCLK / (hpreDivisor a.regs.CFGR_HPRE).toNat :=
  freq_prescaled ho (d := HCLK) rfl rfl rfl (hpreDivisor_ne_zero h.hpre)

theorem freq_pclk1 (h : a.regs.Wf) :
    a.freq PCLK1 = a.freq HCLK / (ppreDivisor a.regs.CFGR_PPRE1).toNat :=
  freq_prescaled ho (d := PCLK1) rfl rfl rfl (ppreDivisor_ne_zero h.ppre1)

theorem freq_pclk2 (h : a.regs.Wf) :
    a.freq PCLK2 = a.freq HCLK / (ppreDivisor a.regs.CFGR_PPRE2).toNat :=
  freq_prescaled ho (d := PCLK2) rfl rfl rfl (ppreDivisor_ne_zero h.ppre2)

omit ho in
theorem node_periph {p : Periph} {c : ℕ} (hc : PERIPHCLK p = some c) (hp : p ≠ .RTC) :
    (graph a.regs a.en).node c = ⟨none, a.en c, 1, 1, [busClk c], 0⟩ := by
  cases p <;> cases hc <;> first | rfl | exact absurd rfl hp

omit ho in
theorem sel_periph {p : Periph} {c : ℕ} (hc : PERIPHCLK p = some c) (hp : p ≠ .RTC) :
    (graph a.regs a.en).sel c = some (busClk c) := by
  rw [Graph.sel, node_periph hc hp]
  rfl

/-- The clock of a peripheral that is enabled is that of its bus. -/
theorem freq_periph {p : Periph} {c : ℕ} (hc : PERIPHCLK p = some c) (hp : p ≠ .RTC)
    (he : a.en c = true) : a.freq c = a.freq (busClk c) := by
  have hnode := node_periph (a := a) hc hp
  have hsel := sel_periph (a := a) hc hp
  have hdiv : ((graph a.regs a.en).node c).divisor = 1 := by rw [hnode]
  rw [freq_prescaled ho hsel (by rw [hnode]; exact he) (by rw [hnode]) (by rw [hdiv]; decide), hdiv]
  exact Nat.div_one _

end RccSpec

/-! ## The comparison -/

/-- The fields of `CFGR` as the firmware decodes them. -/
structure Decodes (cfgr : BitVec 32) (r : RccRegs) : Prop where
  sws : (cfgr &&& 0x0000000c).toNat = r.CFGR_SW.toNat * 2 ^ 2
  pllmul : ((cfgr &&& 0x003c0000) >>> 18).toNat = r.CFGR_PLLMUL.toNat
  pllsrc : (cfgr &&& 0x00010000).toNat = r.CFGR_PLLSRC.toNat * 2 ^ 16
  pllxtpre : (cfgr &&& 0x00020000).toNat = r.CFGR_PLLXTPRE.toNat * 2 ^ 17
  hpre : ((cfgr &&& 0x000000f0) >>> 4).toNat = r.CFGR_HPRE.toNat
  ppre1 : ((cfgr &&& 0x00000700) >>> 8).toNat = r.CFGR_PPRE1.toNat
  ppre2 : ((cfgr &&& 0x00003800) >>> 11).toNat = r.CFGR_PPRE2.toNat

theorem cfgr_fields {N n₁ n₂ n₃ n₄ n₅ n₆ n₇ : ℕ} (hN : N = n₁ * 2 ^ 18 + n₂ * 2 ^ 17 + n₃ * 2 ^ 16 +
      n₄ * 2 ^ 11 + n₅ * 2 ^ 8 + n₆ * 2 ^ 4 + n₇ * 2 ^ 2 + n₇)
    (h₁ : n₁ < 16) (h₂ : n₂ < 2) (h₃ : n₃ < 2) (h₄ : n₄ < 8) (h₅ : n₅ < 8) (h₆ : n₆ < 16) (h₇ : n₇ < 3) :
    N / 2 ^ 2 % 2 ^ 2 = n₇ ∧ N / 2 ^ 18 % 2 ^ 4 = n₁ ∧ N / 2 ^ 16 % 2 ^ 1 = n₃ ∧
      N / 2 ^ 17 % 2 ^ 1 = n₂ ∧ N / 2 ^ 4 % 2 ^ 4 = n₆ ∧ N / 2 ^ 8 % 2 ^ 3 = n₅ ∧
      N / 2 ^ 11 % 2 ^ 3 = n₄ := by
  refine ⟨?_, ?_, ?_, ?_, ?_, ?_, ?_⟩
  · exact Word.field_eq (B := n₇)
      (A := n₁ * 2 ^ 14 + n₂ * 2 ^ 13 + n₃ * 2 ^ 12 + n₄ * 2 ^ 7 + n₅ * 2 ^ 4 + n₆)
      (by rw [hN]; ring) (by omega) (by omega)
  · exact Word.field_eq (A := 0)
      (B := n₂ * 2 ^ 17 + n₃ * 2 ^ 16 + n₄ * 2 ^ 11 + n₅ * 2 ^ 8 + n₆ * 2 ^ 4 + n₇ * 2 ^ 2 + n₇)
      (by rw [hN]; ring) (by omega) (by omega)
  · exact Word.field_eq (A := n₁ * 2 + n₂)
      (B := n₄ * 2 ^ 11 + n₅ * 2 ^ 8 + n₆ * 2 ^ 4 + n₇ * 2 ^ 2 + n₇) (by rw [hN]; ring) (by omega) (by omega)
  · exact Word.field_eq (A := n₁)
      (B := n₃ * 2 ^ 16 + n₄ * 2 ^ 11 + n₅ * 2 ^ 8 + n₆ * 2 ^ 4 + n₇ * 2 ^ 2 + n₇)
      (by rw [hN]; ring) (by omega) (by omega)
  · exact Word.field_eq (A := n₁ * 2 ^ 10 + n₂ * 2 ^ 9 + n₃ * 2 ^ 8 + n₄ * 2 ^ 3 + n₅)
      (B := n₇ * 2 ^ 2 + n₇) (by rw [hN]; ring) (by omega) (by omega)
  · exact Word.field_eq (A := n₁ * 2 ^ 7 + n₂ * 2 ^ 6 + n₃ * 2 ^ 5 + n₄)
      (B := n₆ * 2 ^ 4 + n₇ * 2 ^ 2 + n₇) (by rw [hN]; ring) (by omega) (by omega)
  · exact Word.field_eq (A := n₁ * 2 ^ 4 + n₂ * 2 ^ 3 + n₃ * 2 ^ 2)
      (B := n₅ * 2 ^ 8 + n₆ * 2 ^ 4 + n₇ * 2 ^ 2 + n₇) (by rw [hN]; ring) (by omega) (by omega)

theorem decodes_cfgrRead (h : r.Wf) : Decodes (cfgrRead r) r := by
  obtain ⟨hsw, hmul, hsrc, hxt, hhpre, hppre1, hppre2⟩ := cfgr_fields (toNat_cfgrRead h) h.pllmul
    h.pllxtpre h.pllsrc h.ppre2 h.ppre1 h.hpre h.sw
  exact
    { sws := by rw [Word.toNat_and_mask (k := 2) (n := 2) _ _ rfl, hsw]
      pllmul := by rw [Word.toNat_and_shiftRight (n := 4) _ _ rfl, hmul]
      pllsrc := by rw [Word.toNat_and_mask (k := 16) (n := 1) _ _ rfl, hsrc]
      pllxtpre := by rw [Word.toNat_and_mask (k := 17) (n := 1) _ _ rfl, hxt]
      hpre := by rw [Word.toNat_and_shiftRight (n := 4) _ _ rfl, hhpre]
      ppre1 := by rw [Word.toNat_and_shiftRight (n := 3) _ _ rfl, hppre1]
      ppre2 := by rw [Word.toNat_and_shiftRight (n := 3) _ _ rfl, hppre2] }

theorem getSysclkFreq_eq {cfgr : BitVec 32} (hd : Decodes cfgr r) (h : r.Wf)
    (hm : r.CFGR_PLLMUL.toNat ≠ 15) : (getSysclkFreq cfgr).toNat = sysclkFreq r := by
  have hlt := h.pllmul
  have hpll : ∀ f : BitVec 32, f.toNat ≤ 8000000 →
      (f * (((cfgr &&& 0x003c0000) >>> 18) + 2)).toNat = f.toNat * (r.CFGR_PLLMUL.toNat + 2) := by
    intro f hf
    have hle : f.toNat * (r.CFGR_PLLMUL.toNat + 2) ≤ 8000000 * 16 := Nat.mul_le_mul hf (by omega)
    rw [BitVec.toNat_mul, BitVec.toNat_add, hd.pllmul, show (2 : BitVec 32).toNat = 2 from rfl,
      Nat.mod_eq_of_lt (show r.CFGR_PLLMUL.toNat + 2 < 2 ^ 32 by omega), Nat.mod_eq_of_lt (by omega)]
  have hsws : cfgr &&& 0x0000000c = BitVec.ofNat 32 (r.CFGR_SW.toNat * 2 ^ 2) := by
    rw [← hd.sws, BitVec.ofNat_toNat, BitVec.setWidth_eq]
  have hsrc : cfgr &&& 0x00010000 = BitVec.ofNat 32 (r.CFGR_PLLSRC.toNat * 2 ^ 16) := by
    rw [← hd.pllsrc, BitVec.ofNat_toNat, BitVec.setWidth_eq]
  have hxt : cfgr &&& 0x00020000 = BitVec.ofNat 32 (r.CFGR_PLLXTPRE.toNat * 2 ^ 17) := by
    rw [← hd.pllxtpre, BitVec.ofNat_toNat, BitVec.setWidth_eq]
  unfold getSysclkFreq sysclkFreq
  dsimp only
  rw [hsws, hsrc, hxt]
  rcases sw_cases h.sw with he | he | he <;> rw [he]
  · rfl
  · rfl
  · rw [if_neg (by decide), if_neg (by decide), if_pos (by decide),
      if_neg (show ¬ BitVec.toNat 2 < 2 by decide)]
    obtain h0 | h1 : r.CFGR_PLLSRC.toNat = 0 ∨ r.CFGR_PLLSRC.toNat = 1 := by
      have := h.pllsrc; omega
    · rw [h0, if_pos (by decide), if_neg (by omega)]; exact hpll _ (by decide)
    · obtain hx | hx : r.CFGR_PLLXTPRE.toNat = 0 ∨ r.CFGR_PLLXTPRE.toNat = 1 := by
        have := h.pllxtpre; omega
      · rw [h1, hx, if_neg (by decide), if_neg (by decide), if_pos ⟨rfl, rfl⟩]
        exact hpll _ (by decide)
      · rw [h1, hx, if_neg (by decide), if_pos (by decide), if_neg (by decide)]
        exact hpll _ (by decide)

/-- The AHB prescaler of the emulator agrees with the table of the firmware for
    the divisors 1, 2 and 4 only.  Codes 4 to 7 do not divide in the emulator;
    the table, shared with the APB prescalers, has shifts there. -/
theorem hpre_iff {S n : ℕ} (hS : 8000000 ≤ S) (hn : n < 16) :
    S / 2 ^ APBAHBPrescTable.getD n 0 = S / (if n < 8 then 1 else 2 * (n - 7)) ↔
      n < 4 ∨ n = 8 ∨ n = 9 := by
  interval_cases n <;> simp [APBAHBPrescTable] <;> omega

/-- The APB prescalers agree up to code 5 (divisor 4). -/
theorem ppre_iff {H n : ℕ} (hH : 2000000 ≤ H) (hn : n < 8) :
    H / 2 ^ APBAHBPrescTable.getD n 0 = H / (if n < 4 then 1 else 2 * (n - 3)) ↔ n ≤ 5 := by
  interval_cases n <;> simp [APBAHBPrescTable] <;> omega

/-- What the RCC keeps on a board with an 8 MHz oscillator. -/
structure RccSpec.Inv (a : RccSpec) : Prop where
  wf : a.regs.Wf
  osc : a.regs.oscFreq = 8000000

theorem RccSpec.inv_powerOn (osc32 : BitVec 32) : (powerOn host 8000000 osc32).Inv :=
  ⟨cfgrRegs_wf (r := ⟨8000000, osc32, 0, 0, 0, 0, 0, 0, 0, 0, 0, 0, 0, false, false, false, []⟩)
    (v := 0) (by decide), rfl⟩

/-- What the writes to the fields of the registers keep, every operation keeps. -/
theorem RccSpec.step_regs {P : RccRegs → Prop}
    (hCFGR : ∀ r v, v &&& 3 ≠ 3 → P r → P (cfgrRegs r v))
    (hBDCR : ∀ r (v : BitVec 32), P r → P { r with RTC_SEL := (v &&& 0x00000300) >>> 8 })
    (hENR : ∀ r x y z, P r → P { r with APB2ENR := x, APB1ENR := y, AHBENR := z })
    (hCSR : ∀ r x y z, P r → P { r with CSR_LPWRRSTFb := x, CSR_WWDGRSTFb := y, CSR_IWDGRSTFb := z })
    (h : P a.regs) {o : Op} (hs : a.step host o = some b) : P b.regs := by
  cases o with
  | write offset value size =>
    simp only [RccSpec.step, RccSpec.write] at hs
    split at hs
    · unfold RccSpec.writew at hs
      split at hs
      case h_2 =>
        unfold RccSpec.cfgrWrite at hs
        split at hs
        · cases hs
        · rename_i hv
          cases hs
          exact hCFGR _ _ hv h
      case h_3 | h_4 | h_5 =>
        cases hs
        exact hENR _ _ _ _ h
      case h_6 =>
        cases hs
        exact hBDCR _ _ h
      all_goals
        cases hs
        exact h
    · cases hs
      exact h
  | reset =>
    cases hs
    exact hBDCR _ 0 (hENR _ _ _ _ (hENR _ _ _ _ (hENR _ _ _ _ (hCFGR _ 0 (by decide) h))))
  | setPeriphClkIrq =>
    cases hs
    exact h
  | setResetFlags =>
    cases hs
    exact hCSR _ _ _ _ h

theorem RccSpec.Inv.step (h : a.Inv) {o : Op} (hs : a.step host o = some b) : b.Inv := by
  obtain ⟨hwf, hosc⟩ : b.regs.Wf ∧ b.regs.oscFreq = 8000000 := by
    refine step_regs (P := fun r => r.Wf ∧ r.oscFreq = 8000000) ?_ ?_ ?_ ?_ ⟨h.wf, h.osc⟩ hs
    · exact fun r v hv hr => ⟨cfgrRegs_wf hv, hr.2⟩
    all_goals
      intros
      rename_i hr
      obtain ⟨⟨h₁, h₂, h₃, h₄, h₅, h₆, h₇⟩, hosc⟩ := hr
      exact ⟨⟨h₁, h₂, h₃, h₄, h₅, h₆, h₇⟩, hosc⟩
  exact ⟨hwf, hosc⟩

/-- The firmware, reading `CFGR`, computes the frequencies of the emulator. -/
def Stm32Rcc.ClocksAgree (s : Stm32Rcc) : Prop :=
  let clocks := getClocksFreq ((s.read 0x04 4).setWidth 32)
  clocks.SYSCLK_Frequency = s.clktree.getOutputFreq SYSCLK ∧
  clocks.HCLK_Frequency = s.clktree.getOutputFreq HCLK ∧
  clocks.PCLK1_Frequency = s.clktree.getOutputFreq PCLK1 ∧
  clocks.PCLK2_Frequency = s.clktree.getOutputFreq PCLK2

theorem toNat_shiftRight_eq_div (x : BitVec 32) (n : ℕ) : (x >>> n).toNat = x.toNat / 2 ^ n := by
  rw [BitVec.toNat_ushiftRight, Nat.shiftRight_eq_div_pow]

/-- The comparison, for any value that decodes to the fields of the registers. -/
theorem RccSpec.clocks_iff {cfgr : BitVec 32} (ho : Ordered (graph a.regs a.en).sel) (ha : a.Inv)
    (hd : Decodes cfgr a.regs) (hp : PathEnabled a.regs a.en)
    (hm : a.regs.CFGR_PLLMUL.toNat ≠ 15) :
    ((getClocksFreq cfgr).SYSCLK_Frequency.toNat = a.freq SYSCLK ∧
      (getClocksFreq cfgr).HCLK_Frequency.toNat = a.freq HCLK ∧
      (getClocksFreq cfgr).PCLK1_Frequency.toNat = a.freq PCLK1 ∧
      (getClocksFreq cfgr).PCLK2_Frequency.toNat = a.freq PCLK2) ↔
    (a.regs.CFGR_HPRE.toNat < 4 ∨ a.regs.CFGR_HPRE.toNat = 8 ∨ a.regs.CFGR_HPRE.toNat = 9) ∧
      a.regs.CFGR_PPRE1.toNat ≤ 5 ∧ a.regs.CFGR_PPRE2.toNat ≤ 5 := by
  have hwf := ha.wf
  have hS := (sysclkFreq_bounds hwf hm).1
  have hsys : (getSysclkFreq cfgr).toNat = a.freq SYSCLK := by
    rw [freq_sysclk ho hwf ha.osc hp hm, getSysclkFreq_eq hd hwf hm]
  rw [← freq_sysclk ho hwf ha.osc hp hm] at hS
  have hhclk : (getClocksFreq cfgr).HCLK_Frequency.toNat = a.freq HCLK ↔
      a.regs.CFGR_HPRE.toNat < 4 ∨ a.regs.CFGR_HPRE.toNat = 8 ∨ a.regs.CFGR_HPRE.toNat = 9 := by
    rw [freq_hclk ho hwf, toNat_hpreDivisor hwf.hpre, ← hpre_iff hS hwf.hpre, ← hsys, ← hd.hpre,
      ← toNat_shiftRight_eq_div]
    rfl
  rw [and_iff_right (show (getClocksFreq cfgr).SYSCLK_Frequency.toNat = _ from hsys), hhclk]
  refine and_congr_right fun hh => ?_
  have heq := hhclk.2 hh
  have hH : 2000000 ≤ a.freq HCLK := by
    rw [freq_hclk ho hwf, toNat_hpreDivisor hwf.hpre]
    rcases hh with hh | hh | hh
    · rw [if_pos (by omega)]; omega
    · rw [hh, if_neg (by omega)]; omega
    · rw [hh, if_neg (by omega)]; omega
  refine and_congr ?_ ?_
  · rw [freq_pclk1 ho hwf, toNat_ppreDivisor hwf.ppre1, ← ppre_iff hH hwf.ppre1, ← heq, ← hd.ppre1,
      ← toNat_shiftRight_eq_div]
    rfl
  · rw [freq_pclk2 ho hwf, toNat_ppreDivisor hwf.ppre2, ← ppre_iff hH hwf.ppre2, ← heq, ← hd.ppre2,
      ← toNat_shiftRight_eq_div]
    rfl

theorem Stm32Rcc.Refines.clocksAgree (h : s.Refines a) : s.ClocksAgree ↔
    (getClocksFreq (cfgrRead a.regs)).SYSCLK_Frequency.toNat = a.freq SYSCLK ∧
      (getClocksFreq (cfgrRead a.regs)).HCLK_Frequency.toNat = a.freq HCLK ∧
      (getClocksFreq (cfgrRead a.regs)).PCLK1_Frequency.toNat = a.freq PCLK1 ∧
      (getClocksFreq (cfgrRead a.regs)).PCLK2_Frequency.toNat = a.freq PCLK2 := by
  have hread : (s.read 0x04 4).setWidth 32 = cfgrRead a.regs := by
    rw [← h.regs]
    exact Word.setWidth_setWidth_32 (cfgrRead s.toRccRegs)
  simp only [ClocksAgree, hread, h.getOutputFreq (show SYSCLK < CLK_COUNT by decide),
    h.getOutputFreq (show HCLK < CLK_COUNT by decide), h.getOutputFreq (show PCLK1 < CLK_COUNT by decide),
    h.getOutputFreq (show PCLK2 < CLK_COUNT by decide), BitVec.toNat_eq, RccSpec.freq]

theorem Stm32Rcc.Refines.pathEnabled (h : s.Refines a) :
    PathEnabled s.toRccRegs s.clktree.isEnabled ↔ PathEnabled a.regs a.en := by
  simp only [PathEnabled, ← h.regs, h.isEnabled (show Gated PLLCLK by decide),
    h.isEnabled (show Gated HSICLK by decide),
    h.isEnabled (show Gated HSECLK by decide)]

/-- **When firmware and emulator agree on the clocks.**  The board has an 8 MHz
    oscillator; the prescalers are those with divisor 1, 2 or 4. -/
theorem clocksAgree_iff {osc32 : BitVec 32} (h : Stm32Rcc.Reachable host 8000000 osc32 s)
    (hp : PathEnabled s.toRccRegs s.clktree.isEnabled) (hm : s.CFGR_PLLMUL ≠ 15) :
    s.ClocksAgree ↔ (s.CFGR_HPRE < 4 ∨ s.CFGR_HPRE = 8 ∨ s.CFGR_HPRE = 9) ∧
      s.CFGR_PPRE1 ≤ 5 ∧ s.CFGR_PPRE2 ≤ 5 := by
  obtain ⟨a, ha, hinv⟩ := h.inv (I := RccSpec.Inv) (RccSpec.inv_powerOn osc32)
    fun _ _ _ hI hs => hI.step hs
  rw [ha.pathEnabled] at hp
  have hregs := ha.regs
  have hm' : a.regs.CFGR_PLLMUL.toNat ≠ 15 := fun he =>
    hm (by rw [← congrArg RccRegs.CFGR_PLLMUL hregs] at he; exact BitVec.eq_of_toNat_eq he)
  rw [ha.clocksAgree, RccSpec.clocks_iff ha.ordered hinv (decodes_cfgrRead hinv.wf) hp hm', ← hregs]
  simp only [BitVec.lt_def, BitVec.le_def, BitVec.toNat_eq]
  rfl

/-- With `HCLK = SYSCLK / 4` and `PCLK1 = HCLK / 2`, they agree. -/
theorem clocksAgree_iff_div4 : ∃ s, Stm32Rcc.Reachable zeroHost 8000000 32768 s ∧
    PathEnabled s.toRccRegs s.clktree.isEnabled ∧ s.CFGR_PLLMUL ≠ 15 ∧ s.ClocksAgree := by
  obtain ⟨-, -, s, -, -, -, hs, href⟩ := exists_write
    (show (RccSpec.powerOn zeroHost 8000000 32768).write zeroHost 0x04 0x490 4 = some _ from rfl)
  have hp : PathEnabled s.toRccRegs s.clktree.isEnabled :=
    href.pathEnabled.2 (by unfold PathEnabled; decide)
  have hm : s.CFGR_PLLMUL ≠ 15 := by
    rw [show s.CFGR_PLLMUL = 0 from congrArg RccRegs.CFGR_PLLMUL href.regs]; decide
  refine ⟨s, hs, hp, hm, (clocksAgree_iff hs hp hm).2 ?_⟩
  rw [show s.CFGR_HPRE = 9 from congrArg RccRegs.CFGR_HPRE href.regs,
    show s.CFGR_PPRE1 = 4 from congrArg RccRegs.CFGR_PPRE1 href.regs,
    show s.CFGR_PPRE2 = 0 from congrArg RccRegs.CFGR_PPRE2 href.regs]
  decide

/-- After power-on and a write of `HPRE = 10` the firmware computes an HCLK of
    1 MHz, and that of the emulator has 4/3 MHz. -/
theorem not_clocksAgree_div8 : ∃ s₀ s₁ s, init 8000000 32768 = .ok s₀ ∧
    s₀.reset zeroHost = .ok s₁ ∧ s₁.write zeroHost 0x04 0xa0 4 = .ok s ∧
    PathEnabled s.toRccRegs s.clktree.isEnabled ∧ s.CFGR_PLLMUL ≠ 15 ∧
    (getClocksFreq ((s.read 0x04 4).setWidth 32)).HCLK_Frequency = 1000000 ∧
    s.clktree.getOutputFreq HCLK = 1333333 ∧ ¬ s.ClocksAgree := by
  obtain ⟨s₀, s₁, s, hs₀, hs₁, hs, -, href⟩ := exists_write
    (show (RccSpec.powerOn zeroHost 8000000 32768).write zeroHost 0x04 0xa0 4 = some _ from rfl)
  have hp : PathEnabled _ _ := href.pathEnabled.2 (by unfold PathEnabled; decide)
  have hfw : (getClocksFreq ((s.read 0x04 4).setWidth 32)).HCLK_Frequency = 1000000 := by
    change (getClocksFreq ((BitVec.setWidth 64
      (cfgrRead { s.toRccRegs with warnings := [] })).setWidth 32)).HCLK_Frequency = _
    rw [href.regs]; rfl
  have hem : s.clktree.getOutputFreq HCLK = 1333333 := by
    have hwf : (cfgrRegs (RccSpec.powerOn zeroHost 8000000 32768).regs 0xa0).Wf :=
      cfgrRegs_wf (by decide)
    rw [href.getOutputFreq (show HCLK < CLK_COUNT by decide)]
    refine BitVec.eq_of_toNat_eq ((RccSpec.freq_hclk href.ordered hwf).trans ?_)
    rw [RccSpec.freq_sysclk href.ordered hwf rfl (href.pathEnabled.1 hp) (by decide)]
    rfl
  refine ⟨s₀, s₁, s, hs₀, hs₁, hs, hp, ?_, hfw, hem, fun h => ?_⟩
  · rw [show s.CFGR_PLLMUL = 0 from congrArg RccRegs.CFGR_PLLMUL href.regs]; decide
  · have hhclk := h.2.1
    rw [hfw, hem] at hhclk
    exact absurd hhclk (by decide)

end Bluepill
