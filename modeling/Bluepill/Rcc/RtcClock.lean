/-
  The clock of the RTC.

  It is fed by the oscillators directly (`rtcTree`), so most accesses to the RCC have
  no effect on it, and the others change its frequency once: to one value `k`
  (`Settles`).  That is so

  * if only one of the calls concerns it (`settles_once`);
  * if the calls switch clocks off only (`settles_lower`);
  * if it is off, and stays so (`settles_off`).

  A write to `BDCR` is not of this kind: the clock can be fed first and switched off
  after.
-/
import Bluepill.Rcc.Clocks
import Bluepill.Rcc.Updates

namespace Bluepill

open Forest Rcc ClkTree
open Stm32Rcc (RTCCLK)

namespace Rcc

/-- The clock of the RTC and those that can feed it. -/
def rtcTree : List ClkId := [LSICLK, HSECLK, LSECLK, HSE_DIV128, RTCCLK]

theorem rtcTree_lt : ∀ d ∈ rtcTree, d < CLK_COUNT := by decide

theorem rtcTree_inputs : ∀ d ∈ rtcTree, ∀ p ∈ inputs d, p ∈ rtcTree := by decide

/-- The configurations agree on the clocks that matter. -/
def Same (g g' : Graph) : Prop := ∀ d ∈ rtcTree, g.node d = g'.node d

variable {g g' : Graph} {t t' u : ClkTree} {c c₁ : ClkId} {m m₁ : Update}
  {A : ClkId → Update → Prop}

theorem Sync.sel_mem (h : Sync g t) {d p : ClkId} (hd : d ∈ rtcTree) (hp : g.sel d = some p) :
    p ∈ rtcTree := by
  refine rtcTree_inputs d hd p ?_
  rw [← h.inputs d (rtcTree_lt d hd)]
  unfold Graph.sel at hp
  split at hp
  · exact List.mem_of_getElem? hp
  · cases hp

theorem getOutputFreq_eq (h : Sync g t) : t.getOutputFreq RTCCLK = g.freq RTCCLK :=
  h.agrees.outputFreq_eq h.good _ (h.size ▸ (by decide : RTCCLK < CLK_COUNT))

/-- **The frequency of the clock depends on these clocks only.** -/
theorem freq_same (h : Sync g t) (h' : Sync g' t') (hs : Same g g') :
    t.getOutputFreq RTCCLK = t'.getOutputFreq RTCCLK := by
  have hsel : ∀ d ∈ rtcTree, g'.sel d = g.sel d := fun d hd => by
    unfold Graph.sel; rw [hs d hd]
  have hflow : ∀ d < CLK_COUNT, d ∈ rtcTree → g.freq d = g'.freq d := by
    refine flow_inv (I := fun d v => d ∈ rtcTree → v = g'.freq d)
      (h.agrees.ordered h.good) (fun d _ hroot hd => ?_) fun d _ p v hp hv hd => ?_
    · rw [hs d hd, Graph.freq, flow_root ((hsel d hd).trans hroot)]
    · rw [hv (h.sel_mem hd hp), hs d hd]
      exact (flow_child (h'.agrees.ordered h'.good) ((hsel d hd).trans hp)).symm
  rw [getOutputFreq_eq h, getOutputFreq_eq h']
  exact hflow _ (by decide) (by decide)

theorem Same.apply_of_notMem (hc : c ∉ rtcTree) (m : Update) : Same (g.apply (.update c m)) g :=
  fun _ hd => g.apply_update_ne m fun h => hc (h ▸ hd)

theorem Same.trans {g'' : Graph} (h : Same g g') (h' : Same g' g'') : Same g g'' := fun d hd =>
  (h d hd).trans (h' d hd)

theorem Same.apply (h : Same g g') (m : Update) :
    Same (g.apply (.update c m)) (g'.apply (.update c m)) := by
  intro d hd
  by_cases hdc : d = c
  · subst hdc
    cases m <;> simp [Graph.apply, Graph.set, h d hd]
  · rw [g.apply_update_ne m hdc, g'.apply_update_ne m hdc, h d hd]

/-- A call made again has no effect. -/
theorem Same.apply_again (g : Graph) (c : ClkId) (m : Update) :
    Same ((g.apply (.update c m)).apply (.update c m)) (g.apply (.update c m)) := by
  intro d _
  by_cases hdc : d = c
  · subst hdc; cases m <;> simp [Graph.apply, Graph.set]
  · rw [Graph.apply_update_ne _ m hdc]

/-- Calls that meet `A`, from `t` on, change the frequency of the clock to `k` only. -/
def Settles (A : ClkId → Update → Prop) (t : ClkTree) (k : BitVec 32) : Prop :=
  ∃ J : ClkTree → Prop, J t ∧ ∀ v u, v.Good → J v → Step A v u →
    J u ∧ (u.getOutputFreq RTCCLK ≠ v.getOutputFreq RTCCLK → u.getOutputFreq RTCCLK = k)

/-- **Only one call concerns the clock.** -/
theorem settles_once (h : t.Synced) (ha : Allowed c₁ m₁) (hA : ∀ c m, A c m → Allowed c m)
    (honce : ∀ c m, A c m → c ∉ rtcTree ∨ c = c₁ ∧ m = m₁) : ∃ k, Settles A t k := by
  obtain ⟨g₀, hg₀⟩ := h
  obtain ⟨t₁, -, hgood₁, hagr₁⟩ :=
    update_agrees hg₀.good hg₀.agrees (hg₀.valid ha) hg₀.agrees.size.ge
  have hg₁ := hg₀.apply hgood₁ hagr₁
  -- the configuration is the one at first, or the one after the call
  refine ⟨t₁.getOutputFreq RTCCLK, fun v => ∃ g, Sync g v ∧
    (Same g g₀ ∨ Same g (g₀.apply (.update c₁ m₁))), ⟨g₀, hg₀, .inl fun _ _ => rfl⟩, ?_⟩
  rintro v u - ⟨g, hg, hsame⟩ hstep
  obtain ⟨c, m, hcm, hsync⟩ := Stm32Rcc.step_sync hA hg hstep
  rcases honce c m hcm with hc | ⟨rfl, rfl⟩
  · have hkeep : Same (g.apply (.update c m)) g := Same.apply_of_notMem hc m
    exact ⟨⟨_, hsync, hsame.imp hkeep.trans hkeep.trans⟩,
      fun hne => absurd (freq_same hsync hg hkeep) hne⟩
  · have hdone : Same (g.apply (.update c m)) (g₀.apply (.update c m)) := by
      rcases hsame with hs | hs
      · exact hs.apply m
      · exact (hs.apply m).trans (Same.apply_again g₀ c m)
    exact ⟨⟨_, hsync, .inr hdone⟩, fun _ => freq_same hsync hg₁ hdone⟩

/-- The clock is switched off, or left without an input. -/
def Lowers : Update → Prop
  | .enabled b => b = false
  | .selectedInput i => i = -1
  | .scale _ _ => False

/-- The clock of such a call is off after it. -/
theorem out_lower (h : Sync g t) (ha : Allowed c m) (hm : Lowers m) :
    (∀ f, ((g.apply (.update c m)).node c).out f = 0) ∨
      (g.apply (.update c m)).sel c = none ∧ ((g.apply (.update c m)).node c).src = none := by
  cases m with
  | scale => exact hm.elim
  | enabled b =>
    cases (show b = false from hm)
    exact .inl fun f => by simp [Graph.apply, Graph.set, Node.out]
  | selectedInput i =>
    cases (show i = -1 from hm)
    refine .inr ⟨by simp [Graph.apply, Graph.set, Graph.sel], ?_⟩
    rw [(g.apply_update_keeps c _ c).2]
    exact h.source c ha.1 ha.2.1

/-- Such a call takes a frequency to `0`, or leaves it as it is. -/
theorem freq_lower (h : Sync g t) (h' : Sync (g.apply (.update c m)) u) (ha : Allowed c m)
    (hm : Lowers m) : ∀ d < CLK_COUNT,
      (g.apply (.update c m)).freq d = g.freq d ∨ (g.apply (.update c m)).freq d = 0 := by
  have hzero : ∀ d < CLK_COUNT, ((g.apply (.update c m)).node d).out 0 = 0 := fun d hd =>
    out_zero (h'.agrees.node d (h'.size ▸ hd)).nonzero (.inl rfl)
  have hsel : ∀ d, d ≠ c → (g.apply (.update c m)).sel d = g.sel d := fun d hd => by
    unfold Graph.sel; rw [g.apply_update_ne m hd]
  refine flow_inv (I := fun d v => v = g.freq d ∨ v = 0) (h'.agrees.ordered h'.good)
    (fun d hd hroot => ?_) fun d hd p v hp hv => ?_
  · by_cases hdc : d = c
    · subst hdc
      rcases out_lower h ha hm with hout | ⟨-, hsrc⟩
      · exact .inr (hout _)
      · rw [hsrc]; exact .inr (hzero d hd)
    · left
      rw [hsel d hdc] at hroot
      rw [Graph.freq, flow_root hroot, g.apply_update_ne m hdc]
  · by_cases hdc : d = c
    · subst hdc
      rcases out_lower h ha hm with hout | ⟨hnone, -⟩
      · exact .inr (hout v)
      · rw [hnone] at hp; cases hp
    · rcases hv with rfl | rfl
      · left
        rw [hsel d hdc] at hp
        rw [g.apply_update_ne m hdc]
        exact (flow_child (h.agrees.ordered h.good) hp).symm
      · exact .inr (hzero d hd)

/-- **The calls switch clocks off.** -/
theorem settles_lower (h : t.Synced) (hA : ∀ c m, A c m → Allowed c m)
    (hlow : ∀ c m, A c m → c ∈ rtcTree → Lowers m) : Settles A t 0 := by
  refine ⟨Synced, h, ?_⟩
  rintro v u - ⟨g, hg⟩ hstep
  obtain ⟨c, m, hcm, hsync⟩ := Stm32Rcc.step_sync hA hg hstep
  refine ⟨⟨_, hsync⟩, fun hne => ?_⟩
  by_cases hc : c ∈ rtcTree
  · have hfreq := freq_lower hg hsync (hA c m hcm) (hlow c m hcm hc) RTCCLK (by decide)
    rw [← getOutputFreq_eq hg, ← getOutputFreq_eq hsync] at hfreq
    exact hfreq.resolve_left hne
  · exact absurd (freq_same hsync hg (Same.apply_of_notMem hc m)) hne

/-- The clock is switched off. -/
def Off (t : ClkTree) : Prop := ∃ g, Sync g t ∧ (g.node RTCCLK).enabled = false

theorem Off.freq (h : Off t) : t.getOutputFreq RTCCLK = 0 := by
  obtain ⟨g, hg, hoff⟩ := h
  rw [getOutputFreq_eq hg, Graph.freq, flow]
  split
  · exact if_neg (by rw [hoff]; decide)
  · split <;> exact if_neg (by rw [hoff]; decide)

/-- **The clock is off, and stays so.** -/
theorem settles_off (h : Off t) (hA : ∀ c m, A c m → Allowed c m)
    (hoff : ∀ c m, A c m → c = RTCCLK → m ≠ .enabled true) : Settles A t 0 := by
  refine ⟨Off, h, ?_⟩
  rintro v u - hv hstep
  obtain ⟨g, hg, hen⟩ := id hv
  obtain ⟨c, m, hcm, hsync⟩ := Stm32Rcc.step_sync hA hg hstep
  have hu : Off u := by
    refine ⟨_, hsync, ?_⟩
    by_cases hc : RTCCLK = c
    · subst hc
      cases m with
      | enabled b =>
        cases b with
        | true => exact absurd rfl (hoff _ _ hcm rfl)
        | false => simp [Graph.apply, Graph.set]
      | scale => simpa [Graph.apply, Graph.set] using hen
      | selectedInput => simpa [Graph.apply, Graph.set] using hen
    · rw [g.apply_update_ne m hc]; exact hen
  exact ⟨hu, fun hne => absurd (hu.freq.trans hv.freq.symm) hne⟩

/-! ## Accesses -/

variable {host : Host} {v : BitVec 32}

theorem cfgrUpdates_notMem (v : BitVec 32) : ∀ c m, (c, m) ∈ Stm32Rcc.cfgrUpdates v → c ∉ rtcTree := by
  have hclks : (Stm32Rcc.cfgrUpdates v).map Prod.fst =
    [PLLCLK, PLLXTPRECLK, PLLCLK, PCLK2, PCLK1, HCLK, SYSCLK, SYSCLK, SYSCLK] := rfl
  have hnot : ∀ c ∈ [PLLCLK, PLLXTPRECLK, PLLCLK, PCLK2, PCLK1, HCLK, SYSCLK, SYSCLK, SYSCLK],
    c ∉ rtcTree := by decide
  intro c m hm
  exact hnot c (hclks ▸ List.mem_map_of_mem hm)

theorem enableUpdates_notMem (host : Host) (v : BitVec 32) {l : List (Periph × ℕ)}
    (hl : ∀ q ∈ l, q.1 ≠ .RTC) : ∀ c m, (c, m) ∈ Stm32Rcc.enableUpdates host v l → c ∉ rtcTree := by
  intro c m hm
  obtain ⟨q, hq, hc⟩ := List.mem_filterMap.1 hm
  obtain ⟨c', hc', heq⟩ := Option.map_eq_some_iff.1 hc
  cases heq
  have hne := hl q hq
  cases hp : q.1 <;> rw [hp] at hc' hne <;> cases hc' <;> first | decide | exact absurd rfl hne

theorem ahbPeriphs_ne : ∀ q ∈ Stm32Rcc.ahbPeriphs, q.1 ≠ .RTC := by decide
theorem apb1Periphs_ne : ∀ q ∈ Stm32Rcc.apb1Periphs, q.1 ≠ .RTC := by decide
theorem apb2Periphs_ne : ∀ q ∈ Stm32Rcc.apb2Periphs, q.1 ≠ .RTC := by decide

/-- Of the calls of a write, other than to `BDCR`, one concerns the clock of the RTC. -/
theorem write_once (host : Host) {offset : ℕ} (ho : offset ≠ 0x20) (value : BitVec 64) (size : ℕ) :
    ∃ c₁ m₁, Allowed c₁ m₁ ∧ ∀ c m, (c, m) ∈ Stm32Rcc.updates host (.write offset value size) →
      c ∉ rtcTree ∨ c = c₁ ∧ m = m₁ := by
  have hnone : Allowed HSECLK (.enabled true) := by show HSECLK < CLK_COUNT; decide
  simp only [Stm32Rcc.updates]
  split
  · split
    · refine ⟨HSECLK, .enabled (testBIT host (value.setWidth 32) 16), hnone, fun c m hm => ?_⟩
      simp only [Stm32Rcc.crUpdates, List.mem_cons, Prod.mk.injEq, List.not_mem_nil, or_false] at hm
      rcases hm with ⟨rfl, -⟩ | ⟨rfl, rfl⟩ | ⟨rfl, -⟩
      · exact .inl (by decide)
      · exact .inr ⟨rfl, rfl⟩
      · exact .inl (by decide)
    · exact ⟨_, _, hnone, fun c m hm => .inl (cfgrUpdates_notMem _ c m hm)⟩
    · exact ⟨_, _, hnone, fun c m hm => .inl (enableUpdates_notMem host _ ahbPeriphs_ne c m hm)⟩
    · exact ⟨_, _, hnone, fun c m hm => .inl (enableUpdates_notMem host _ apb2Periphs_ne c m hm)⟩
    · exact ⟨_, _, hnone, fun c m hm => .inl (enableUpdates_notMem host _ apb1Periphs_ne c m hm)⟩
    · exact absurd rfl ho
    · refine ⟨LSICLK, .enabled (testBIT host (value.setWidth 32) 0),
        by show LSICLK < CLK_COUNT; decide, fun c m hm => ?_⟩
      simp only [Stm32Rcc.csrUpdates, List.mem_singleton, Prod.mk.injEq] at hm
      exact .inr hm
    · exact ⟨_, _, hnone, fun c m hm => absurd hm List.not_mem_nil⟩
  · exact ⟨_, _, hnone, fun c m hm => absurd hm List.not_mem_nil⟩

/-- A reset switches the clock off. -/
theorem reset_lowers (host : Host) : ∀ c m, (c, m) ∈ Stm32Rcc.updates host .reset → c ∈ rtcTree →
    Lowers m := by
  intro c m hm hc
  simp only [Stm32Rcc.updates, List.mem_append] at hm
  rcases hm with (((((hm | hm) | hm) | hm) | hm) | hm) | hm
  · simp only [Stm32Rcc.crUpdates, List.mem_cons, Prod.mk.injEq, List.not_mem_nil, or_false] at hm
    rcases hm with ⟨rfl, -⟩ | ⟨-, rfl⟩ | ⟨rfl, -⟩
    · exact absurd hc (by decide)
    · exact testBIT_eq host 0x00000083 (show 16 < 32 by decide)
    · exact absurd hc (by decide)
  · exact absurd hc (cfgrUpdates_notMem 0 c m hm)
  · exact absurd hc (enableUpdates_notMem host 0 apb2Periphs_ne c m hm)
  · exact absurd hc (enableUpdates_notMem host 0 apb1Periphs_ne c m hm)
  · exact absurd hc (enableUpdates_notMem host 0 ahbPeriphs_ne c m hm)
  · simp only [Stm32Rcc.bdcrUpdates, List.mem_cons, Prod.mk.injEq, List.not_mem_nil, or_false] at hm
    rcases hm with ⟨-, rfl⟩ | ⟨-, rfl⟩ | ⟨-, rfl⟩
    · exact testBIT_eq host 0 (show 0 < 32 by decide)
    · exact rfl
    · exact rfl
  · simp only [Stm32Rcc.csrUpdates, List.mem_singleton, Prod.mk.injEq] at hm
    rw [hm.2]; exact testBIT_eq host 0x0c000000 (show 0 < 32 by decide)

/-- **An access, other than a write to `BDCR`, changes the frequency to one value.** -/
theorem access_settles (h : t.Synced) (o : Stm32Rcc.Access) (ho : ∀ v, o.1 ≠ .write 0x20 v 4) :
    ∃ k, Settles (fun c m => (c, m) ∈ Stm32Rcc.updates host o.1) t k := by
  have hA : ∀ c m, (c, m) ∈ Stm32Rcc.updates host o.1 → Allowed c m := fun c m hm =>
    Stm32Rcc.Ranged.allowed (Stm32Rcc.updates_ranged o.1 _ hm)
  obtain ⟨o, hreg⟩ := o
  cases o with
  | write offset value size =>
    by_cases hbdcr : offset = 0x20
    · subst hbdcr
      have hsize : size ≠ 4 := fun h4 => ho value (by rw [h4])
      refine ⟨0, settles_lower h hA fun c m hm => ?_⟩
      simp only [Stm32Rcc.updates, if_neg hsize, List.not_mem_nil] at hm
    · obtain ⟨c₁, m₁, ha, honce⟩ := write_once host hbdcr value size
      exact settles_once h ha hA honce
  | reset => exact ⟨0, settles_lower h hA (reset_lowers host)⟩
  | setPeriphClkIrq p irq => cases hreg
  | setResetFlags v => exact ⟨0, settles_lower h hA fun c m hm => absurd hm List.not_mem_nil⟩

end Rcc

end Bluepill
