/-
  The clock tree of the RCC, as configured by its registers.

  `graph r en` is the configuration that the registers `r` and the enable bits
  `en` describe.  After the first reset the clock tree always has such a
  configuration (`Sync`): every register write changes the registers and the
  enable bits, and the clock tree follows.  So the frequencies of all clocks are
  those of `graph r en`, whatever the history.
-/
import Bluepill.Clktree.Spec
import Bluepill.Rcc
import Mathlib.Tactic.IntervalCases

namespace Bluepill

open Rcc

namespace Rcc

def CLK_COUNT : ℕ := 39

/-- The bus clock of a peripheral clock. -/
def busClk (d : ClkId) : ClkId :=
  if d < 22 ∨ d = 26 ∨ d = 33 ∨ d = 34 then PCLK2 else if d < 37 then PCLK1 else HCLK

/-- The inputs of each clock. -/
def inputs (d : ClkId) : List ClkId :=
  match d with
  | 0 => [] | 1 => [] | 2 => [] | 3 => []
  | 4 => [HSECLK] | 5 => [HSICLK] | 6 => [HSECLK] | 7 => [HSECLK, HSE_DIV2]
  | 8 => [HSI_DIV2, PLLXTPRECLK] | 9 => [HSICLK, HSECLK, PLLCLK]
  | 10 => [SYSCLK] | 11 => [HCLK] | 12 => [HCLK]
  | 35 => [LSECLK, LSICLK, HSE_DIV128]
  | d => [busClk d]

/-- The configuration of clock `d`; `e` is its enable bit, if it has one. -/
def node (r : RccRegs) (e : Bool) (d : ClkId) : Node :=
  match d with
  | 0 => ⟨some HSI_FREQ, e, 1, 1, inputs 0, -1⟩
  | 1 => ⟨some LSI_FREQ, e, 1, 1, inputs 1, -1⟩
  | 2 => ⟨some r.oscFreq, e, 1, 1, inputs 2, -1⟩
  | 3 => ⟨some r.osc32Freq, e, 1, 1, inputs 3, -1⟩
  | 4 => ⟨none, true, 1, 128, inputs 4, 0⟩
  | 5 => ⟨none, true, 1, 2, inputs 5, 0⟩
  | 6 => ⟨none, true, 1, 2, inputs 6, 0⟩
  | 7 => ⟨none, true, 1, 1, inputs 7, r.CFGR_PLLXTPRE.toNat⟩
  | 8 => ⟨none, e, Stm32Rcc.pllMultiplier r.CFGR_PLLMUL, 1, inputs 8, r.CFGR_PLLSRC.toNat⟩
  | 9 => ⟨none, true, 1, 1, inputs 9, r.CFGR_SW.toNat⟩
  | 10 => ⟨none, true, 1, Stm32Rcc.hpreDivisor r.CFGR_HPRE, inputs 10, 0⟩
  | 11 => ⟨none, true, 1, Stm32Rcc.ppreDivisor r.CFGR_PPRE1, inputs 11, 0⟩
  | 12 => ⟨none, true, 1, Stm32Rcc.ppreDivisor r.CFGR_PPRE2, inputs 12, 0⟩
  | 35 => ⟨none, e, 1, 1, inputs 35, (r.RTC_SEL - 1).toInt⟩
  | d => ⟨none, e, 1, 1, inputs d, 0⟩

def graph (r : RccRegs) (en : ClkId → Bool) : Graph where
  size := CLK_COUNT
  node d := if d < CLK_COUNT then node r (en d) d else Graph.empty.node d

/-- The clocks with an enable bit. -/
def Gated (c : ClkId) : Prop := c < CLK_COUNT ∧ (c < 4 ∨ c = PLLCLK ∨ 12 < c)

instance (c : ClkId) : Decidable (Gated c) := inferInstanceAs (Decidable (_ ∧ _))

/-- The updates the RCC makes: in range, and never of a source clock but to
    switch it. -/
def Allowed (c : ClkId) : Update → Prop
  | .scale _ divisor => c < CLK_COUNT ∧ divisor ≠ 0
  | .enabled _ => c < CLK_COUNT
  | .selectedInput i => c < CLK_COUNT ∧ 3 < c ∧ -1 ≤ i ∧ i < (inputs c).length

/-- The clock tree `t` is good and has the configuration `g`, with the clocks
    of the RCC. -/
structure Sync (g : Graph) (t : ClkTree) : Prop where
  good : t.Good
  agrees : Agrees g t
  size : g.size = CLK_COUNT
  inputs : ∀ d < CLK_COUNT, (g.node d).inputs = inputs d
  source : ∀ d < CLK_COUNT, 3 < d → (g.node d).src = none

end Rcc

variable {g : Graph} {s : Stm32Rcc} {r : RccRegs} {t : ClkTree} {c : ClkId} {m : Update} {host : Host}
  {en : ClkId → Bool} {x : Except Fault Stm32Rcc}

theorem Graph.apply_update_ne (g : Graph) {c d : ClkId} (m : Update) (h : d ≠ c) :
    (g.apply (.update c m)).node d = g.node d := by
  cases m <;> simp [Graph.apply, Graph.set, h]

theorem Graph.apply_update_keeps (g : Graph) (c : ClkId) (m : Update) (d : ClkId) :
    ((g.apply (.update c m)).node d).inputs = (g.node d).inputs ∧
      ((g.apply (.update c m)).node d).src = (g.node d).src := by
  by_cases hd : d = c
  · subst hd; cases m <;> simp [Graph.apply, Graph.set]
  · rw [g.apply_update_ne m hd]; exact ⟨rfl, rfl⟩

theorem Rcc.Sync.valid (h : Sync g t) (ha : Allowed c m) : g.Valid (.update c m) := by
  cases m with
  | scale => exact ⟨h.size ▸ ha.1, ha.2⟩
  | enabled => exact show c < g.size from h.size ▸ ha
  | selectedInput i =>
    exact ⟨h.size ▸ ha.1, h.source c ha.1 ha.2.1, ha.2.2.1, h.inputs c ha.1 ▸ ha.2.2.2⟩

theorem Rcc.Sync.apply (h : Sync g t) {u : ClkTree} (hu : u.Good)
    (ha : Agrees (g.apply (.update c m)) u) : Sync (g.apply (.update c m)) u := by
  refine ⟨hu, ha, ?_, fun d hd => ?_, fun d hd h3 => ?_⟩
  · cases m <;> exact h.size
  · rw [(g.apply_update_keeps c m d).1, h.inputs d hd]
  · rw [(g.apply_update_keeps c m d).2, h.source d hd h3]

theorem Rcc.Sync.adduser (h : Sync g t) (hc : c < CLK_COUNT) {irq : Irq} {u : ClkTree}
    (hu : t.adduser c irq = .ok u) : Sync g u := by
  have hlt : c < g.size := h.size ▸ hc
  rcases call_agrees (k := .adduser c irq) h.good h.agrees hlt (Nat.le_refl _) with
    he | ⟨u', hu', hg, ha⟩
  · cases hu.symm.trans he
  · cases hu.symm.trans hu'
    exact ⟨hg, ha, h.size, h.inputs, h.source⟩

namespace Stm32Rcc

/-- The state shows the registers `r`, warnings aside, and its clock tree has
    the configuration `g`. -/
structure Shows (s : Stm32Rcc) (r : RccRegs) (g : Graph) : Prop where
  sync : Sync g s.clktree
  regs : { s.toRccRegs with warnings := [] } = r

/-- The computation returns a state that shows `r` and `g`. -/
def Yields (x : Except Fault Stm32Rcc) (r : RccRegs) (g : Graph) : Prop :=
  ∃ s, x = .ok s ∧ s.Shows r g

/-- What holds of the rest of a computation holds of the whole. -/
theorem Yields.elim {Q : Except Fault Stm32Rcc → Prop} {f : Stm32Rcc → Except Fault Stm32Rcc}
    (h : Yields x r g) (hf : ∀ s, s.Shows r g → Q (f s)) : Q (x >>= f) := by
  obtain ⟨s, rfl, hs⟩ := h
  exact hf s hs

theorem Yields.bind {r' : RccRegs} {g' : Graph} {f : Stm32Rcc → Except Fault Stm32Rcc}
    (h : Yields x r g) (hf : ∀ s, s.Shows r g → Yields (f s) r' g') : Yields (x >>= f) r' g' :=
  h.elim (Q := fun y => Yields y r' g') hf

theorem Shows.warnIf (h : s.Shows r g) (b : Bool) (msg : String) : (s.warnIf b msg).Shows r g := by
  unfold Stm32Rcc.warnIf
  split
  · exact ⟨h.sync, h.regs⟩
  · exact h

/-- **An allowed update succeeds, and the clock tree follows.** -/
theorem Shows.update (h : s.Shows r g) (ha : Allowed c m) :
    Yields (s.update c m) r (g.apply (.update c m)) := by
  have hs := h.sync
  obtain ⟨t, ht, hg, hagr⟩ := update_agrees hs.good hs.agrees (hs.valid ha) hs.agrees.size.ge
  refine ⟨{ s with clktree := t }, ?_, hs.apply hg hagr, h.regs⟩
  rw [Stm32Rcc.update, ht]; rfl

theorem Shows.enabled (h : s.Shows r g) (hc : c < CLK_COUNT) (b : Bool) :
    Yields (s.update c (.enabled b)) r (g.apply (.update c (.enabled b))) := h.update hc

theorem Shows.scale (h : s.Shows r g) (hc : c < CLK_COUNT) (mul : BitVec 16) {div : BitVec 16}
    (hd : div ≠ 0) : Yields (s.update c (.scale mul div)) r (g.apply (.update c (.scale mul div))) :=
  h.update (m := .scale mul div) ⟨hc, hd⟩

theorem Shows.selectedInput (h : s.Shows r g) (hc : c < CLK_COUNT) (h3 : 3 < c) {i : ℤ}
    (h₁ : -1 ≤ i) (h₂ : i < (inputs c).length) :
    Yields (s.update c (.selectedInput i)) r (g.apply (.update c (.selectedInput i))) :=
  h.update (m := .selectedInput i) ⟨hc, h3, h₁, h₂⟩

/-! ## Register writes -/

theorem Shows.crWrite (h : s.Shows r g) (v : BitVec 32) :
    Yields (s.crWrite host v) r (((g.apply (.update PLLCLK (.enabled (testBIT host v 24)))).apply
      (.update HSECLK (.enabled (testBIT host v 16)))).apply
      (.update HSICLK (.enabled (testBIT host v 0)))) := by
  unfold Stm32Rcc.crWrite
  refine ((h.warnIf _ _).enabled (by decide) _).bind fun s₁ h₁ => ?_
  refine ((h₁.warnIf _ _).enabled (by decide) _).bind fun s₂ h₂ => ?_
  exact (h₂.warnIf _ _).enabled (by decide) _

theorem toNat_ppreDivisor {ppre : BitVec 32} (h : ppre.toNat < 8) :
    (ppreDivisor ppre).toNat = if ppre.toNat < 4 then 1 else 2 * (ppre.toNat - 3) := by
  obtain ⟨n, hn, rfl⟩ : ∃ n < 8, ppre = BitVec.ofNat 32 n := ⟨ppre.toNat, h, by simp⟩
  interval_cases n <;> rfl

theorem toNat_hpreDivisor {hpre : BitVec 32} (h : hpre.toNat < 16) :
    (hpreDivisor hpre).toNat = if hpre.toNat < 8 then 1 else 2 * (hpre.toNat - 7) := by
  obtain ⟨n, hn, rfl⟩ : ∃ n < 16, hpre = BitVec.ofNat 32 n := ⟨hpre.toNat, h, by simp⟩
  interval_cases n <;> rfl

theorem ppreDivisor_ne_zero {ppre : BitVec 32} (h : ppre.toNat < 8) : ppreDivisor ppre ≠ 0 := by
  intro h0
  have hn := toNat_ppreDivisor h
  rw [h0, show (0 : BitVec 16).toNat = 0 from rfl] at hn
  split at hn <;> omega

theorem hpreDivisor_ne_zero {hpre : BitVec 32} (h : hpre.toNat < 16) : hpreDivisor hpre ≠ 0 := by
  intro h0
  have hn := toNat_hpreDivisor h
  rw [h0, show (0 : BitVec 16).toNat = 0 from rfl] at hn
  split at hn <;> omega

theorem sw_lt {v : BitVec 32} (h : v &&& 0x00000003 ≠ 3) : ((v &&& 0x00000003) >>> 0).toNat < 3 := by
  have hle : ((v &&& 0x00000003) >>> 0).toNat ≤ 3 := Word.toNat_and_shiftRight_le v 0x00000003 0
  have hne : ((v &&& 0x00000003) >>> 0).toNat ≠ 3 := fun he => h (BitVec.eq_of_toNat_eq he)
  omega

theorem rtcSel_range {sel : BitVec 32} (h : sel.toNat < 4) :
    -1 ≤ (sel - 1).toInt ∧ (sel - 1).toInt < 3 := by
  obtain ⟨n, hn, rfl⟩ : ∃ n < 4, sel = BitVec.ofNat 32 n := ⟨sel.toNat, h, by simp⟩
  interval_cases n <;> decide

theorem sw_cases {w : BitVec 32} (h : w.toNat < 3) : w = 0 ∨ w = 1 ∨ w = 2 := by
  have : w.toNat = 0 ∨ w.toNat = 1 ∨ w.toNat = 2 := by omega
  rcases this with h | h | h
  · exact .inl (BitVec.eq_of_toNat_eq h)
  · exact .inr (.inl (BitVec.eq_of_toNat_eq h))
  · exact .inr (.inr (BitVec.eq_of_toNat_eq h))

/-- The registers after a write to `CFGR`. -/
def cfgrRegs (r : RccRegs) (v : BitVec 32) : RccRegs :=
  { r with
    CFGR_PLLMUL := extract32 v 18 4
    CFGR_PLLXTPRE := extract32 v 17 1
    CFGR_PLLSRC := extract32 v 16 1
    CFGR_PPRE2 := (v &&& 0x00003c00) >>> 11
    CFGR_PPRE1 := (v &&& 0x00000700) >>> 8
    CFGR_HPRE := (v &&& 0x000000f0) >>> 4
    CFGR_SW := (v &&& 0x00000003) >>> 0 }

/-- The configuration after the first part of a write to `CFGR`. -/
def prescaled (g : Graph) (r : RccRegs) : Graph :=
  g.applyAll [.update PLLCLK (.scale (pllMultiplier r.CFGR_PLLMUL) 1),
    .update PLLXTPRECLK (.selectedInput r.CFGR_PLLXTPRE.toNat),
    .update PLLCLK (.selectedInput r.CFGR_PLLSRC.toNat),
    .update PCLK2 (.scale 1 (ppreDivisor r.CFGR_PPRE2)),
    .update PCLK1 (.scale 1 (ppreDivisor r.CFGR_PPRE1)),
    .update HCLK (.scale 1 (hpreDivisor r.CFGR_HPRE))]

/-- The configuration after a write to `CFGR`. -/
def cfgrGraph (g : Graph) (r : RccRegs) : Graph :=
  (prescaled g r).apply (.update SYSCLK (.selectedInput r.CFGR_SW.toNat))

/-- `cfgrWrite` up to the selection of the system clock. -/
theorem Shows.cfgrWrite_elim {Q : Except Fault Stm32Rcc → Prop} (h : s.Shows r g) (v : BitVec 32)
    (init : Bool) (hQ : ∀ s : Stm32Rcc, s.Shows (cfgrRegs r v) (prescaled g (cfgrRegs r v)) →
      Q (if s.CFGR_SW = 0 ∨ s.CFGR_SW = 1 ∨ s.CFGR_SW = 2 then
        s.update SYSCLK (.selectedInput s.CFGR_SW.toNat)
        else .error (.hwError "Invalid input selected for SYSCLK"))) : Q (s.cfgrWrite v init) := by
  unfold Stm32Rcc.cfgrWrite
  have hmul : extract32 v 18 4 ≤ 0xf :=
    Nat.le_of_lt_succ (Word.toNat_extract_lt v 18 (show 4 ≤ 32 by decide))
  have hxt : (extract32 v 17 1).toNat < 2 := Word.toNat_extract_lt v 17 (by decide)
  have hsrc : (extract32 v 16 1).toNat < 2 := Word.toNat_extract_lt v 16 (by decide)
  simp only [assert_of hmul, Machine.ok_bind]
  refine ((h.warnIf _ _).scale (by decide) _ (by decide)).elim fun s₁ h₁ => ?_
  replace h₁ : Shows { s₁ with CFGR_PLLMUL := extract32 v 18 4 } _ _ :=
    ⟨h₁.sync, congrArg (fun r : RccRegs => { r with CFGR_PLLMUL := extract32 v 18 4 }) h₁.regs⟩
  refine ((h₁.warnIf _ _).selectedInput (by decide) (by decide) (by omega)
    (by simp [inputs]; omega)).elim fun s₂ h₂ => ?_
  replace h₂ : Shows { s₂ with CFGR_PLLXTPRE := extract32 v 17 1 } _ _ :=
    ⟨h₂.sync, congrArg (fun r : RccRegs => { r with CFGR_PLLXTPRE := extract32 v 17 1 }) h₂.regs⟩
  refine ((h₂.warnIf _ _).selectedInput (by decide) (by decide) (by omega)
    (by simp [inputs]; omega)).elim fun s₃ h₃ => ?_
  replace h₃ : Shows { s₃ with
      CFGR_PLLSRC := extract32 v 16 1, CFGR_PPRE2 := (v &&& 0x00003c00) >>> 11 } _ _ :=
    ⟨h₃.sync, congrArg (fun r : RccRegs => { r with
      CFGR_PLLSRC := extract32 v 16 1, CFGR_PPRE2 := (v &&& 0x00003c00) >>> 11 }) h₃.regs⟩
  refine (h₃.scale (by decide) _ (ppreDivisor_ne_zero ?_)).elim fun s₄ h₄ => ?_
  · exact Nat.lt_succ_of_le (Word.toNat_and_shiftRight_le v 0x00003c00 11)
  replace h₄ : Shows { s₄ with CFGR_PPRE1 := (v &&& 0x00000700) >>> 8 } _ _ :=
    ⟨h₄.sync, congrArg (fun r : RccRegs => { r with CFGR_PPRE1 := (v &&& 0x00000700) >>> 8 }) h₄.regs⟩
  refine (h₄.scale (by decide) _ (ppreDivisor_ne_zero ?_)).elim fun s₅ h₅ => ?_
  · exact Nat.lt_succ_of_le (Word.toNat_and_shiftRight_le v 0x00000700 8)
  replace h₅ : Shows { s₅ with CFGR_HPRE := (v &&& 0x000000f0) >>> 4 } _ _ :=
    ⟨h₅.sync, congrArg (fun r : RccRegs => { r with CFGR_HPRE := (v &&& 0x000000f0) >>> 4 }) h₅.regs⟩
  refine (h₅.scale (by decide) _ (hpreDivisor_ne_zero ?_)).elim fun s₆ h₆ => ?_
  · exact Nat.lt_succ_of_le (Word.toNat_and_shiftRight_le v 0x000000f0 4)
  exact hQ { s₆ with CFGR_SW := (v &&& 0x00000003) >>> 0 } ⟨h₆.sync,
    congrArg (fun r : RccRegs => { r with CFGR_SW := (v &&& 0x00000003) >>> 0 }) h₆.regs⟩

theorem Shows.cfgrWrite (h : s.Shows r g) (v : BitVec 32) (init : Bool) (hsw : v &&& 3 ≠ 3) :
    Yields (s.cfgrWrite v init) (cfgrRegs r v) (cfgrGraph g (cfgrRegs r v)) := by
  refine h.cfgrWrite_elim (Q := fun y => Yields y _ _) v init fun s' h' => ?_
  have hreg : s'.CFGR_SW = (v &&& 0x00000003) >>> 0 := congrArg RccRegs.CFGR_SW h'.regs
  have hlt := sw_lt hsw
  rw [hreg, if_pos (sw_cases hlt)]
  exact h'.selectedInput (by decide) (by decide) (by omega) (Int.ofNat_lt.2 hlt)

theorem Shows.cfgrWrite_error (h : s.Shows r g) {v : BitVec 32} (init : Bool) (hsw : v &&& 3 = 3) :
    s.cfgrWrite v init = .error (.hwError "Invalid input selected for SYSCLK") := by
  refine h.cfgrWrite_elim (Q := fun y => y = .error _) v init fun s' h' => ?_
  have hreg : s'.CFGR_SW = (v &&& 0x00000003) >>> 0 := congrArg RccRegs.CFGR_SW h'.regs
  rw [hreg, hsw, if_neg (by decide)]

end Stm32Rcc

end Bluepill
