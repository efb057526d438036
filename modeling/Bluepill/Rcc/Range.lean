/-
  How slow and how fast the clocks can be, if the oscillators have 8 MHz.

  The scales that the RCC sets are bounded (`scaling`), so the frequencies of the
  clocks are: a clock is off, or its frequency is in its `range`.  That a bound for
  the inputs of a clock gives one for the clock is a comparison of the two tables
  (`scaling_range`).

  `Bounded` says it of a clock tree; the initialization makes it true, and no access
  to the RCC makes it false (`Bounded.step`).
-/
import Bluepill.Rcc.Clocks
import Bluepill.Rcc.Updates

namespace Bluepill

open Forest Rcc

namespace Rcc

/-- The least and the greatest frequency of clock `d` when it runs. -/
def range (d : ClkId) : ℕ × ℕ :=
  match d with
  | 0 | 2 => (8000000, 8000000)
  | 4 => (62500, 62500)
  | 5 | 6 => (4000000, 4000000)
  | 7 => (4000000, 8000000)
  | 8 | 9 => (8000000, 128000000)
  | 10 => (500000, 128000000)
  | 1 | 3 | 35 => (0, 2 ^ 32 - 1)
  | _ => (62500, 128000000)

/-- The bounds of the multiplier and of the divisor of clock `d`. -/
def scaling (d : ClkId) : (ℕ × ℕ) × ℕ × ℕ :=
  match d with
  | 4 => ((1, 1), 128, 128)
  | 5 | 6 => ((1, 1), 2, 2)
  | 8 => ((2, 16), 1, 1)
  | 10 => ((1, 1), 1, 16)
  | 11 | 12 => ((1, 1), 1, 8)
  | _ => ((1, 1), 1, 1)

theorem scaling_range : ∀ d < CLK_COUNT, ∀ p ∈ inputs d,
    (range d).1 ≤ (range p).1 * (scaling d).1.1 / (scaling d).2.2 ∧
      (range p).2 * (scaling d).1.2 / (scaling d).2.1 ≤ (range d).2 := by
  decide

theorem scaling_range_source : ∀ d < 4,
    (range d).1 ≤ (range d).1 * (scaling d).1.1 / (scaling d).2.2 ∧
      (range d).2 * (scaling d).1.2 / (scaling d).2.1 ≤ (range d).2 := by
  decide

/-- Off, or in the range. -/
def Within (d : ClkId) (f : BitVec 32) : Prop :=
  f = 0 ∨ (range d).1 ≤ f.toNat ∧ f.toNat ≤ (range d).2

/-- The scale of clock `d` is bounded, and so is its source frequency. -/
structure Scaled (d : ClkId) (n : Node) : Prop where
  mul : n.multiplier = 0 ∨
    (scaling d).1.1 ≤ n.multiplier.toNat ∧ n.multiplier.toNat ≤ (scaling d).1.2
  div : (scaling d).2.1 ≤ n.divisor.toNat ∧ n.divisor.toNat ≤ (scaling d).2.2
  src : ∀ f, n.src = some f → Within d f

theorem scaling_pos (d : ClkId) : 0 < (scaling d).2.1 := by
  unfold scaling; split <;> decide

theorem range_lt (d : ClkId) : (range d).2 < 2 ^ 32 := by
  unfold range; split <;> decide

variable {d : ClkId} {n : Node} {f : BitVec 32} {l : ℕ × ℕ}

theorem Scaled.divisor_pos (h : Scaled d n) : 0 < n.divisor.toNat :=
  (scaling_pos d).trans_le h.div.1

theorem Scaled.divisor_ne (h : Scaled d n) : n.divisor ≠ 0 := fun h0 =>
  absurd (h0 ▸ h.divisor_pos) (by decide)

/-- A bounded scale takes the bounds `l` of the input to those of the clock. -/
theorem Scaled.within (h : Scaled d n)
    (hl : (range d).1 ≤ l.1 * (scaling d).1.1 / (scaling d).2.2 ∧
      l.2 * (scaling d).1.2 / (scaling d).2.1 ≤ (range d).2)
    (hf : f = 0 ∨ l.1 ≤ f.toNat ∧ f.toNat ≤ l.2) : Within d (n.out f) := by
  rcases h.mul with hm | ⟨hm₁, hm₂⟩
  · exact .inl (out_zero h.divisor_ne (.inr hm))
  rcases hf with hf | ⟨hf₁, hf₂⟩
  · exact .inl (out_zero h.divisor_ne (.inl hf))
  by_cases he : n.enabled = true
  · have hlo : (range d).1 ≤ f.toNat * n.multiplier.toNat / n.divisor.toNat :=
      hl.1.trans (Nat.div_le_div (Nat.mul_le_mul hf₁ hm₁) h.div.2 h.divisor_pos.ne')
    have hhi : f.toNat * n.multiplier.toNat / n.divisor.toNat ≤ (range d).2 :=
      (Nat.div_le_div (Nat.mul_le_mul hf₂ hm₂) h.div.1 (scaling_pos d).ne').trans hl.2
    right
    rw [toNat_out he h.divisor_ne, Nat.mod_eq_of_lt (hhi.trans_lt (range_lt d))]
    exact ⟨hlo, hhi⟩
  · exact .inl (if_neg he)

/-- **The clocks of a configuration with bounded scales have bounded frequencies.** -/
theorem freq_within {g : Graph} {t : ClkTree} (h : Sync g t)
    (hs : ∀ d < CLK_COUNT, Scaled d (g.node d)) : ∀ d < CLK_COUNT, Within d (g.freq d) := by
  refine flow_inv (h.agrees.ordered h.good) (fun d hd _ => ?_) fun d hd p f hp hf => ?_
  · -- a root: a source clock, or one with no input selected
    cases hsrc : (g.node d).src with
    | none => exact .inl (out_zero (hs d hd).divisor_ne (.inl rfl))
    | some f =>
      have h4 : d < 4 := by
        by_contra h4
        rw [h.source d hd (by omega)] at hsrc
        cases hsrc
      exact (hs d hd).within (scaling_range_source d h4) ((hs d hd).src f hsrc)
  · have hmem : p ∈ inputs d := by
      rw [← h.inputs d hd]
      unfold Graph.sel at hp
      split at hp
      · exact List.mem_of_getElem? hp
      · cases hp
    exact (hs d hd).within (scaling_range d hd p hmem) hf

end Rcc

namespace ClkTree

/-- The scales of the clocks are bounded. -/
def Bounded (t : ClkTree) : Prop := ∃ g, Sync g t ∧ ∀ d < CLK_COUNT, Scaled d (g.node d)

variable {t u : ClkTree}

theorem Bounded.within (h : t.Bounded) : ∀ d < CLK_COUNT, Within d (t.getOutputFreq d) := by
  obtain ⟨g, hg, hs⟩ := h
  intro d hd
  rw [hg.agrees.outputFreq_eq hg.good d (hg.size ▸ hd)]
  exact freq_within hg hs d hd

/-- The scales the RCC sets are bounded. -/
theorem scaled_apply {c d : ClkId} {m : Update} {g : Graph} (hm : Stm32Rcc.Ranged c m)
    (h : Scaled d (g.node d)) : Scaled d ((g.apply (.update c m)).node d) := by
  by_cases hd : d = c
  · subst hd
    cases m with
    | scale mul div =>
      have hnode : (g.apply (.update d (.scale mul div))).node d =
          { g.node d with multiplier := mul, divisor := div } := by
        simp [Graph.apply, Graph.set]
      rw [hnode]
      rcases hm with ⟨rfl, h₁, h₂, rfl⟩ | ⟨rfl, rfl, h₁, h₂⟩ | ⟨rfl | rfl, rfl, h₁, h₂⟩
      · exact ⟨.inr ⟨h₁, h₂⟩, ⟨le_rfl, le_rfl⟩, h.src⟩
      all_goals exact ⟨.inr ⟨le_rfl, le_rfl⟩, ⟨h₁, h₂⟩, h.src⟩
    | enabled b => simpa [Graph.apply, Graph.set] using ⟨h.mul, h.div, h.src⟩
    | selectedInput i => simpa [Graph.apply, Graph.set] using ⟨h.mul, h.div, h.src⟩
  · rw [g.apply_update_ne m hd]; exact h

theorem Bounded.step (h : t.Bounded) (hs : t.Step Stm32Rcc.Ranged u) : u.Bounded := by
  obtain ⟨g, hg, hscaled⟩ := h
  obtain ⟨c, m, hm, hsync⟩ := Stm32Rcc.step_sync (fun _ _ => Stm32Rcc.Ranged.allowed) hg hs
  exact ⟨_, hsync, fun d hd => scaled_apply hm (hscaled d hd)⟩

/-- The multiplier and the divisor of clock `d` as initialized. -/
def initScale (d : ClkId) : BitVec 16 × BitVec 16 :=
  match d with
  | 4 => (1, 128)
  | 5 | 6 => (1, 2)
  | 8 | 10 | 11 | 12 => (0, 1)
  | _ => (1, 1)

theorem initScale_bounded : ∀ d < CLK_COUNT,
    ((initScale d).1 = 0 ∨ (scaling d).1.1 ≤ (initScale d).1.toNat ∧
      (initScale d).1.toNat ≤ (scaling d).1.2) ∧
    (scaling d).2.1 ≤ (initScale d).2.toNat ∧ (initScale d).2.toNat ≤ (scaling d).2.2 := by
  decide

theorem initGraph_scale (oscFreq osc32Freq : BitVec 32) : ∀ d < CLK_COUNT,
    ((Stm32Rcc.initGraph oscFreq osc32Freq).node d).multiplier = (initScale d).1 ∧
    ((Stm32Rcc.initGraph oscFreq osc32Freq).node d).divisor = (initScale d).2 ∧
    ((Stm32Rcc.initGraph oscFreq osc32Freq).node d).src =
      [HSI_FREQ, LSI_FREQ, oscFreq, osc32Freq][d]? := by
  intro d hd
  rw [Stm32Rcc.initGraph_node]
  unfold CLK_COUNT at hd
  interval_cases d <;> exact ⟨rfl, rfl, rfl⟩

/-- **As initialized, the clock tree is bounded.** -/
theorem bounded_init {osc32Freq : BitVec 32} (h : Sync (Stm32Rcc.initGraph 8000000 osc32Freq) t) :
    t.Bounded := by
  refine ⟨_, h, fun d hd => ?_⟩
  obtain ⟨hmul, hdiv, hsrc⟩ := initGraph_scale 8000000 osc32Freq d hd
  refine ⟨hmul ▸ (initScale_bounded d hd).1, hdiv ▸ (initScale_bounded d hd).2, fun f hf => ?_⟩
  rw [hsrc] at hf
  match d with
  | 0 | 1 | 2 => cases hf; exact .inr ⟨by decide, by decide⟩
  | 3 => exact .inr ⟨Nat.zero_le _, Nat.le_of_lt_succ f.isLt⟩
  | _ + 4 => cases hf

end ClkTree

end Bluepill
