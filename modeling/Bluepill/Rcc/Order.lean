/-
  The order in which the RCC is configured does not matter.

  In the specification a write to one of the six configuration registers is two
  independent things: a change of the register fields (`regsWrite`), and a list
  of clocks switched on or off (`switches`).  Different registers own different
  fields and different clocks (`governed`), so their writes commute, and a device
  shows no more than what the specification says (`Refines.read_eq`).
-/
import Bluepill.Rcc.Spec

namespace Bluepill

open Rcc Stm32Rcc

namespace RccSpec

/-- `CR`, `CFGR`, `APB2ENR`, `APB1ENR`, `BDCR` and `CSR`. -/
def configRegs : List ℕ := [0x00, 0x04, 0x18, 0x1c, 0x20, 0x24]

/-- The clocks a register switches. -/
def governed : ℕ → List ClkId
  | 0x00 => [PLLCLK, HSECLK, HSICLK]
  | 0x18 => apb2Periphs.filterMap fun p => PERIPHCLK p.1
  | 0x1c => apb1Periphs.filterMap fun p => PERIPHCLK p.1
  | 0x20 => [LSECLK, RTCCLK]
  | 0x24 => [LSICLK]
  | _ => []

/-- The peripheral clocks of `l`, as the bits of `v` switch them. -/
def periphSwitches (host : Host) (v : BitVec 32) (l : List (Periph × ℕ)) : List (ClkId × Bool) :=
  l.filterMap fun p => (PERIPHCLK p.1).map (·, testBIT host v p.2)

/-- The clocks that a write of `v` switches. -/
def switches (host : Host) (v : BitVec 32) : ℕ → List (ClkId × Bool)
  | 0x00 => [(PLLCLK, testBIT host v 24), (HSECLK, testBIT host v 16), (HSICLK, testBIT host v 0)]
  | 0x18 => periphSwitches host v apb2Periphs
  | 0x1c => periphSwitches host v apb1Periphs
  | 0x20 => (LSECLK, testBIT host v 0) ::
      if (v &&& 0x00000300) >>> 8 ≠ 0 then [(RTCCLK, (v >>> 15 &&& 0x01) != 0)] else []
  | 0x24 => [(LSICLK, testBIT host v 0)]
  | _ => []

/-- The register fields after a write of `v`. -/
def regsWrite (v : BitVec 32) (r : RccRegs) : ℕ → RccRegs
  | 0x04 => cfgrRegs r v
  | 0x18 => { r with APB2ENR := v &&& 0x0000fffd }
  | 0x1c => { r with APB1ENR := v &&& 0x00005e7d }
  | 0x20 => { r with RTC_SEL := (v &&& 0x00000300) >>> 8 }
  | _ => r

/-- The state after a write of `v` to a configuration register. -/
def configure (host : Host) (a : RccSpec) (offset : ℕ) (v : BitVec 32) : RccSpec where
  regs := regsWrite v a.regs offset
  en := Machine.store a.en (switches host v offset)

variable {host : Host} {a : RccSpec} {o o' : ℕ} {v v' : BitVec 32}

theorem writew_eq_configure (ho : o ∈ configRegs) (value : BitVec 64)
    (hsw : o = 0x04 → value.setWidth 32 &&& (3 : BitVec 32) ≠ 3) :
    a.writew host o value = some (a.configure host o (value.setWidth 32)) := by
  simp only [configRegs, List.mem_cons, List.not_mem_nil, or_false] at ho
  rcases ho with rfl | rfl | rfl | rfl | rfl | rfl
  · rfl
  · exact if_neg (hsw rfl)
  · rfl
  · rfl
  · show some (a.bdcrWrite host (value.setWidth 32)) = _
    unfold bdcrWrite configure switches regsWrite
    dsimp only
    split <;> rfl
  · rfl

theorem switches_governed (ho : o ∈ configRegs) :
    (switches host v o).map Prod.fst ⊆ governed o := by
  simp only [configRegs, List.mem_cons, List.not_mem_nil, or_false] at ho
  rcases ho with rfl | rfl | rfl | rfl | rfl | rfl
  · exact List.Subset.refl _
  · exact List.Subset.refl _
  · exact List.Subset.refl _
  · exact List.Subset.refl _
  · -- the clock of the RTC is left alone if no source is selected for it
    simp only [switches, governed, List.map_cons]
    split <;> simp
  · exact List.Subset.refl _

/-- Different registers switch different clocks. -/
theorem governed_disjoint : ∀ o ∈ configRegs, ∀ o' ∈ configRegs, o ≠ o' →
    ∀ c ∈ governed o, c ∉ governed o' := by
  decide

theorem regsWrite_comm (ho : o ∈ configRegs) (ho' : o' ∈ configRegs) (hne : o ≠ o') (r : RccRegs) :
    regsWrite v' (regsWrite v r o) o' = regsWrite v (regsWrite v' r o') o := by
  simp only [configRegs, List.mem_cons, List.not_mem_nil, or_false] at ho ho'
  rcases ho with rfl | rfl | rfl | rfl | rfl | rfl <;>
    rcases ho' with rfl | rfl | rfl | rfl | rfl | rfl <;> first | rfl | exact absurd rfl hne

/-- **Writes to different configuration registers commute.** -/
theorem configure_comm (ho : o ∈ configRegs) (ho' : o' ∈ configRegs) (hne : o ≠ o') :
    (a.configure host o v).configure host o' v' = (a.configure host o' v').configure host o v := by
  have hdisj : ∀ p ∈ switches host v o, ∀ q ∈ switches host v' o', p.1 ≠ q.1 := by
    intro p hp q hq he
    have hpo := switches_governed ho (List.mem_map_of_mem hp)
    have hqo := switches_governed ho' (List.mem_map_of_mem hq)
    exact governed_disjoint o ho o' ho' hne p.1 hpo (he ▸ hqo)
  unfold configure
  rw [regsWrite_comm ho ho' hne, Machine.store_comm hdisj]

end RccSpec

namespace Stm32Rcc

variable {host : Host} {s t : Stm32Rcc} {a : RccSpec}

/-! ## What the device shows -/

theorem Refines.onBit_eq (hs : s.Refines a) (ht : t.Refines a) {c : ℕ} (hc : Gated c) :
    s.onBit c = t.onBit c := by
  unfold onBit; rw [hs.isEnabled hc, ht.isEnabled hc]

/-- **A device shows only what its specification says.** -/
theorem Refines.read_eq (hs : s.Refines a) (ht : t.Refines a) (offset size : ℕ) :
    s.read offset size = t.read offset size := by
  have hregs : { s.toRccRegs with warnings := [] } = { t.toRccRegs with warnings := [] } :=
    hs.regs.trans ht.regs.symm
  have hon : ∀ {c : ℕ}, Gated c → s.onBit c = t.onBit c := hs.onBit_eq ht
  unfold Stm32Rcc.read
  split
  · unfold readw
    split
    case h_1 =>
      unfold crRead
      rw [hon (c := PLLCLK) (by decide), hon (c := HSECLK) (by decide),
        hon (c := HSICLK) (by decide)]
    case h_2 =>
      have hcfgr := congrArg cfgrRead hregs
      exact congrArg (BitVec.setWidth 64) hcfgr
    case h_3 =>
      have hreg := congrArg RccRegs.AHBENR hregs
      exact congrArg (BitVec.setWidth 64) hreg
    case h_4 =>
      have hreg := congrArg RccRegs.APB2ENR hregs
      exact congrArg (BitVec.setWidth 64) hreg
    case h_5 =>
      have hreg := congrArg RccRegs.APB1ENR hregs
      exact congrArg (BitVec.setWidth 64) hreg
    case h_6 =>
      have hsel := congrArg RccRegs.RTC_SEL hregs
      change s.RTC_SEL = t.RTC_SEL at hsel
      unfold bdcrRead
      rw [hon (c := LSECLK) (by decide), hon (c := RTCCLK) (by decide), hsel]
    case h_7 =>
      have hflag := congrArg RccRegs.CSR_IWDGRSTFb hregs
      change s.CSR_IWDGRSTFb = t.CSR_IWDGRSTFb at hflag
      unfold csrRead
      rw [hon (c := LSICLK) (by decide), hflag]
    case h_8 => rfl
  · rfl

/-- **The order of two configuration writes does not matter.**  In every
    reachable state, two writes to different registers among `CR`, `CFGR`,
    `APB2ENR`, `APB1ENR`, `BDCR` and `CSR`, none of them selecting an invalid
    system clock, succeed in both orders, and lead to the same register contents
    and the same frequencies of all clocks. -/
theorem writes_commute {oscFreq osc32Freq : BitVec 32} (h : Reachable host oscFreq osc32Freq s)
    {o o' : ℕ} (ho : o ∈ RccSpec.configRegs) (ho' : o' ∈ RccSpec.configRegs) (hne : o ≠ o')
    (v v' : BitVec 64) (hv : o = 0x04 → v.setWidth 32 &&& (3 : BitVec 32) ≠ 3)
    (hv' : o' = 0x04 → v'.setWidth 32 &&& (3 : BitVec 32) ≠ 3) :
    ∃ s₁ s₂ t₁ t₂, s.write host o v 4 = .ok s₁ ∧ s₁.write host o' v' 4 = .ok s₂ ∧
      s.write host o' v' 4 = .ok t₁ ∧ t₁.write host o v 4 = .ok t₂ ∧
      (∀ r ∈ RccSpec.configRegs, s₂.read r 4 = t₂.read r 4) ∧
      ∀ d < CLK_COUNT, s₂.clktree.getOutputFreq d = t₂.clktree.getOutputFreq d := by
  obtain ⟨a, ha, -⟩ := h.inv (I := fun _ => True) trivial fun _ _ _ _ _ => trivial
  have hw : ∀ b : RccSpec, b.write host o v 4 = some (b.configure host o (v.setWidth 32)) :=
    fun b => RccSpec.writew_eq_configure ho v hv
  have hw' : ∀ b : RccSpec, b.write host o' v' 4 = some (b.configure host o' (v'.setWidth 32)) :=
    fun b => RccSpec.writew_eq_configure ho' v' hv'
  obtain ⟨s₁, hs₁, hr₁, hsa₁⟩ := h.write ha (hw a)
  obtain ⟨s₂, hs₂, -, hsa₂⟩ := hr₁.write hsa₁ (hw' _)
  obtain ⟨t₁, ht₁, hq₁, hta₁⟩ := h.write ha (hw' a)
  obtain ⟨t₂, ht₂, -, hta₂⟩ := hq₁.write hta₁ (hw _)
  rw [RccSpec.configure_comm ho ho' hne] at hsa₂
  refine ⟨s₁, s₂, t₁, t₂, hs₁, hs₂, ht₁, ht₂, fun r _ => hsa₂.read_eq hta₂ r 4, fun d hd => ?_⟩
  rw [hsa₂.getOutputFreq hd, hta₂.getOutputFreq hd]

/-- The PLL switched on, and selected as the system clock. -/
theorem writes_commute_pll : ∃ s s₁ s₂ t₁ t₂, Reachable zeroHost 8000000 32768 s ∧
    s.write zeroHost 0x00 0x01010001 4 = .ok s₁ ∧ s₁.write zeroHost 0x04 0x001d0402 4 = .ok s₂ ∧
    s.write zeroHost 0x04 0x001d0402 4 = .ok t₁ ∧ t₁.write zeroHost 0x00 0x01010001 4 = .ok t₂ ∧
    ∀ d < CLK_COUNT, s₂.clktree.getOutputFreq d = t₂.clktree.getOutputFreq d := by
  obtain ⟨s, hs⟩ := exists_reachable zeroHost 8000000 32768
  obtain ⟨s₁, s₂, t₁, t₂, h₁, h₂, h₃, h₄, -, hf⟩ := @writes_commute zeroHost s 8000000 32768 hs
    0x00 0x04 (by decide) (by decide) (by decide) 0x01010001 0x001d0402 (by decide) (by decide)
  exact ⟨s, s₁, s₂, t₁, t₂, hs, h₁, h₂, h₃, h₄, hf⟩

end Stm32Rcc

end Bluepill
