/-
  The RCC as registers and enable bits.

  `RccSpec` is the RCC without a clock tree: what is left are the registers and
  one enable bit for each clock.  Its operations are plain register operations.
  The device refines it (`Refines`): from the first reset on, every operation
  that the device completes is the operation of the specification, and the
  clock tree has the configuration `graph regs en` (`Refines.step`).  So what the
  operations of the specification keep holds of the device (`Reachable.inv`).
-/
import Bluepill.Rcc.Config
import Mathlib

namespace Bluepill

open Rcc Stm32Rcc

structure RccSpec where
  regs : RccRegs
  en : ClkId → Bool

namespace RccSpec

/-- Set the enable bits of the clocks governed by a register. -/
def enable (host : Host) (v : BitVec 32) (l : List (Periph × ℕ)) (en : ClkId → Bool) :
    ClkId → Bool :=
  l.foldl (fun en p => match PERIPHCLK p.1 with
    | some c => Function.update en c (testBIT host v p.2)
    | none => en) en

def crWrite (host : Host) (a : RccSpec) (v : BitVec 32) : RccSpec :=
  { a with en := Function.update (Function.update (Function.update a.en
      PLLCLK (testBIT host v 24)) HSECLK (testBIT host v 16)) HSICLK (testBIT host v 0) }

def cfgrWrite (a : RccSpec) (v : BitVec 32) : Option RccSpec :=
  if v &&& 3 = 3 then none else some { a with regs := cfgrRegs a.regs v }

def apb2enrWrite (host : Host) (a : RccSpec) (v : BitVec 32) : RccSpec where
  regs := { a.regs with APB2ENR := v &&& 0x0000fffd }
  en := enable host v apb2Periphs a.en

def ahbenrWrite (host : Host) (a : RccSpec) (v : BitVec 32) : RccSpec where
  regs := { a.regs with AHBENR := v &&& 0x0000fffd }
  en := enable host v ahbPeriphs a.en

def apb1enrWrite (host : Host) (a : RccSpec) (v : BitVec 32) : RccSpec where
  regs := { a.regs with APB1ENR := v &&& 0x00005e7d }
  en := enable host v apb1Periphs a.en

def bdcrWrite (host : Host) (a : RccSpec) (v : BitVec 32) : RccSpec :=
  let sel := (v &&& 0x00000300) >>> 8
  let en := Function.update a.en LSECLK (testBIT host v 0)
  { regs := { a.regs with RTC_SEL := sel }
    en := if sel ≠ 0 then Function.update en RTCCLK ((v >>> 15 &&& 0x01) != 0) else en }

def csrWrite (host : Host) (a : RccSpec) (v : BitVec 32) : RccSpec :=
  { a with en := Function.update a.en LSICLK (testBIT host v 0) }

def writew (host : Host) (a : RccSpec) (offset : ℕ) (value : BitVec 64) : Option RccSpec :=
  match offset with
  | 0x00 => some (a.crWrite host (value.setWidth 32))
  | 0x04 => a.cfgrWrite (value.setWidth 32)
  | 0x14 => some (a.ahbenrWrite host (value.setWidth 32))
  | 0x18 => some (a.apb2enrWrite host (value.setWidth 32))
  | 0x1c => some (a.apb1enrWrite host (value.setWidth 32))
  | 0x20 => some (a.bdcrWrite host (value.setWidth 32))
  | 0x24 => some (a.csrWrite host (value.setWidth 32))
  | _ => some a

def write (host : Host) (a : RccSpec) (offset : ℕ) (value : BitVec 64) (size : ℕ) :
    Option RccSpec :=
  if size = 4 then a.writew host offset value else some a

/-- The part of a reset that follows the write to `CFGR`. -/
def resetEnables (host : Host) (a : RccSpec) : RccSpec :=
  ((((a.apb2enrWrite host 0).apb1enrWrite host 0).ahbenrWrite host 0).bdcrWrite host 0).csrWrite
    host 0x0c000000

def reset (host : Host) (a : RccSpec) : RccSpec :=
  let a := a.crWrite host 0x00000083
  resetEnables host { a with regs := cfgrRegs a.regs 0 }

def step (host : Host) (a : RccSpec) : Op → Option RccSpec
  | .write offset value size => a.write host offset value size
  | .reset => some (a.reset host)
  | .setPeriphClkIrq _ _ => some a
  | .setResetFlags v => some { a with regs := { a.regs with
      CSR_LPWRRSTFb := v >>> 31 != 0
      CSR_WWDGRSTFb := v >>> 30 != 0
      CSR_IWDGRSTFb := v >>> 29 != 0 } }

/-- The state after `stm32_rcc_init` and the first reset. -/
def powerOn (host : Host) (oscFreq osc32Freq : BitVec 32) : RccSpec :=
  reset host
    { regs := ⟨oscFreq, osc32Freq, 0, 0, 0, 0, 0, 0, 0, 0, 0, 0, 0, false, false, false, []⟩
      en := fun _ => false }

end RccSpec

/-! ## Configurations -/

namespace Rcc

variable {r : RccRegs} {en : ClkId → Bool} {c d : ℕ}

theorem node_enabled (h : Gated c) (e b : Bool) : { node r e c with enabled := b } = node r b c := by
  obtain ⟨-, h⟩ := h
  unfold node
  split <;> first | rfl | simp at h

/-- The clocks outside of the system clock path depend on neither `CFGR`. -/
theorem node_congr (r r' : RccRegs) (h : d < 7 ∨ 12 < d) (h₁ : r'.oscFreq = r.oscFreq)
    (h₂ : r'.osc32Freq = r.osc32Freq) (h₃ : r'.RTC_SEL = r.RTC_SEL) (e : Bool) :
    node r' e d = node r e d := by
  unfold node
  split <;> simp_all

theorem Sync.congr {g g' : Graph} {t : ClkTree} (h : Sync g t) (hsize : g'.size = g.size)
    (hnode : ∀ d < CLK_COUNT, g'.node d = g.node d) (hfresh : ∀ d, CLK_COUNT ≤ d → g'.sel d = none) :
    Sync g' t := by
  have hs := hsize.trans h.size
  refine ⟨h.good, ⟨h.agrees.size.trans hsize.symm, fun d hd => ?_, fun d hd => hfresh d (hs ▸ hd)⟩, hs,
    fun d hd => ?_, fun d hd h3 => ?_⟩
  · rw [hnode d (hs ▸ hd)]; exact h.agrees.node d (hsize ▸ hd)
  · rw [hnode d hd]; exact h.inputs d hd
  · rw [hnode d hd]; exact h.source d hd h3

theorem graph_enabled (h : Gated c) (b : Bool) :
    (graph r en).apply (.update c (.enabled b)) = graph r (Function.update en c b) := by
  simp only [Graph.apply, Graph.set, graph, Graph.mk.injEq, true_and]
  funext d
  by_cases hd : d = c
  · subst hd; simp only [Function.update_self, if_pos h.1]; exact node_enabled h _ b
  · simp only [Function.update_of_ne hd]

theorem graph_cfgr (v : BitVec 32) :
    cfgrGraph (graph r en) (cfgrRegs r v) = graph (cfgrRegs r v) en := by
  simp only [cfgrGraph, prescaled, Graph.applyAll, List.foldl_cons, List.foldl_nil, Graph.apply,
    Graph.set, graph, Graph.mk.injEq, true_and]
  refine funext fun (d : ℕ) => ?_
  by_cases hd : d < 7 ∨ 12 < d
  · have hne : d ≠ 7 ∧ d ≠ 8 ∧ d ≠ 9 ∧ d ≠ 10 ∧ d ≠ 11 ∧ d ≠ 12 := by omega
    simp only [Function.update_of_ne, ne_eq, hne, not_false_eq_true]
    rw [node_congr r (cfgrRegs r v) hd rfl rfl rfl]
  · obtain rfl | rfl | rfl | rfl | rfl | rfl : d = 7 ∨ d = 8 ∨ d = 9 ∨ d = 10 ∨ d = 11 ∨ d = 12 := by
      omega
    all_goals rfl

theorem graph_rtcSel (sel : BitVec 32) :
    (graph r en).apply (.update RTCCLK (.selectedInput (sel - 1).toInt)) =
      graph { r with RTC_SEL := sel } en := by
  simp only [Graph.apply, Graph.set, graph, Graph.mk.injEq, true_and]
  funext d
  by_cases hd : d = RTCCLK
  · subst hd; rfl
  · rw [Function.update_of_ne hd]
    split
    · unfold node
      split <;> first | rfl | exact absurd rfl hd
    · rfl

end Rcc

/-! ## Refinement -/

namespace Stm32Rcc

/-- The device has the registers and the enable bits of the specification. -/
def Refines (s : Stm32Rcc) (a : RccSpec) : Prop := s.Shows a.regs (graph a.regs a.en)

/-- The computation returns a state that refines `a`. -/
def Reaches (x : Except Fault Stm32Rcc) (a : RccSpec) : Prop := Yields x a.regs (graph a.regs a.en)

variable {s : Stm32Rcc} {a b : RccSpec} {host : Host} {x : Except Fault Stm32Rcc} {c : ℕ}

theorem Reaches.bind {f : Stm32Rcc → Except Fault Stm32Rcc} (h : Reaches x a)
    (hf : ∀ s, s.Refines a → Reaches (f s) b) : Reaches (x >>= f) b := Yields.bind h hf

theorem Refines.enabled (h : s.Refines a) (hc : Gated c) (e : Bool) :
    Reaches (s.update c (.enabled e)) { a with en := Function.update a.en c e } := by
  have hu := Shows.enabled h hc.1 e
  rw [graph_enabled hc] at hu; exact hu

theorem Refines.crWrite (h : s.Refines a) (v : BitVec 32) :
    Reaches (s.crWrite host v) (a.crWrite host v) := by
  have hc : Yields (s.crWrite host v) _ _ := Shows.crWrite h v
  rw [graph_enabled (by decide), graph_enabled (by decide),
    graph_enabled (by decide)] at hc
  exact hc

theorem Refines.cfgrWrite (h : s.Refines a) {v : BitVec 32} (init : Bool) (hv : v &&& 3 ≠ 3) :
    Reaches (s.cfgrWrite v init) { a with regs := cfgrRegs a.regs v } := by
  have hc := Shows.cfgrWrite h v init hv
  rw [graph_cfgr] at hc; exact hc

theorem periphClk_gated {p : Periph} (h : PERIPHCLK p = some c) : Gated c := by
  cases p <;> cases h <;> decide

theorem Refines.enables {l : List (Periph × ℕ)} (v : BitVec 32) :
    ∀ {s : Stm32Rcc} {a : RccSpec}, (∀ p ∈ l, (PERIPHCLK p.1).isSome) → s.Refines a →
      Reaches (l.foldlM (periphEnable host v) s) { a with en := RccSpec.enable host v l a.en } := by
  induction l with
  | nil => intro s a _ h; exact ⟨s, rfl, h⟩
  | cons p l ih =>
    intro s a hl h
    obtain ⟨c, hc⟩ := Option.isSome_iff_exists.1 (hl p (by simp))
    rw [List.foldlM_cons]
    have hp : Reaches (periphEnable host v s p)
        { a with en := Function.update a.en c (testBIT host v p.2) } := by
      rw [periphEnable, hc]; exact h.enabled (periphClk_gated hc) _
    refine hp.bind fun s' h' => ?_
    have hih := ih (fun q hq => hl q (by simp [hq])) h'
    simp only [RccSpec.enable, List.foldl_cons, hc] at hih ⊢
    exact hih

theorem Refines.apb2enrWrite (h : s.Refines a) (v : BitVec 32) :
    Reaches (s.apb2enrWrite host v) (a.apb2enrWrite host v) := by
  refine (Refines.enables v (by decide) h).bind fun s' h' => ?_
  exact ⟨_, rfl, h'.sync, congrArg (fun r : RccRegs => { r with APB2ENR := v &&& 0x0000fffd }) h'.regs⟩

theorem Refines.ahbenrWrite (h : s.Refines a) (v : BitVec 32) :
    Reaches (s.ahbenrWrite host v) (a.ahbenrWrite host v) := by
  refine (Refines.enables v (by decide) h).bind fun s' h' => ?_
  exact ⟨_, rfl, h'.sync, congrArg (fun r : RccRegs => { r with AHBENR := v &&& 0x0000fffd }) h'.regs⟩

theorem Refines.apb1enrWrite (h : s.Refines a) (v : BitVec 32) :
    Reaches (s.apb1enrWrite host v) (a.apb1enrWrite host v) := by
  refine (Refines.enables v (by decide) h).bind fun s' h' => ?_
  exact ⟨_, rfl, h'.sync, congrArg (fun r : RccRegs => { r with APB1ENR := v &&& 0x00005e7d }) h'.regs⟩

theorem Refines.bdcrWrite (h : s.Refines a) (v : BitVec 32) :
    Reaches (s.bdcrWrite host v) (a.bdcrWrite host v) := by
  unfold Stm32Rcc.bdcrWrite
  have hsel : ((v &&& 0x00000300) >>> 8).toNat < 4 :=
    Nat.lt_succ_of_le (Word.toNat_and_shiftRight_le v 0x00000300 8)
  obtain ⟨hr₁, hr₂⟩ := rtcSel_range hsel
  refine (h.enabled (by decide) _).bind fun s₁ h₁ => ?_
  replace h₁ : Shows { s₁ with RTC_SEL := (v &&& 0x00000300) >>> 8 } _ _ :=
    ⟨h₁.sync, congrArg (fun r : RccRegs => { r with RTC_SEL := (v &&& 0x00000300) >>> 8 }) h₁.regs⟩
  have h₂ := h₁.selectedInput (c := RTCCLK) (by decide) (by decide) hr₁ hr₂
  rw [graph_rtcSel] at h₂
  refine Yields.elim (Q := fun y => Reaches y (a.bdcrWrite host v)) h₂ fun s₃ h₃ => ?_
  have hreg : s₃.RTC_SEL = (v &&& 0x00000300) >>> 8 := congrArg RccRegs.RTC_SEL h₃.regs
  rw [hreg, RccSpec.bdcrWrite]
  by_cases hs : (v &&& 0x00000300) >>> 8 = 0
  · simp only [ne_eq, hs, not_true_eq_false, if_false]; rw [hs] at h₃; exact ⟨s₃, rfl, h₃⟩
  · simp only [ne_eq, hs, not_false_eq_true, if_true]
    exact Refines.enabled (a := ⟨_, _⟩) h₃ (by decide) _

theorem Refines.csrWrite (h : s.Refines a) (v : BitVec 32) :
    Reaches (s.csrWrite host v) (a.csrWrite host v) := h.enabled (by decide) _

/-- The computation returns a state that refines `o`, or reports an invalid
    system clock if there is none. -/
def Follows (x : Except Fault Stm32Rcc) : Option RccSpec → Prop
  | some b => Reaches x b
  | none => x = .error (.hwError "Invalid input selected for SYSCLK")

/-- A write to another offset does nothing. -/
theorem writew_other (host : Host) {offset : ℕ}
    (ho : offset ∉ [0x00, 0x04, 0x14, 0x18, 0x1c, 0x20, 0x24]) (s : Stm32Rcc) (a : RccSpec) (value : BitVec 64) :
    s.writew host offset value = .ok s ∧ a.writew host offset value = some a := by
  constructor
  · unfold Stm32Rcc.writew
    split <;> first | rfl | exact absurd (by decide) ho
  · unfold RccSpec.writew
    split <;> first | rfl | exact absurd (by decide) ho

theorem Refines.writew (h : s.Refines a) (offset : ℕ) (value : BitVec 64) :
    Follows (s.writew host offset value) (a.writew host offset value) := by
  by_cases ho : offset ∈ [0x00, 0x04, 0x14, 0x18, 0x1c, 0x20, 0x24]
  · simp only [List.mem_cons, List.not_mem_nil, or_false] at ho
    rcases ho with rfl | rfl | rfl | rfl | rfl | rfl | rfl
    · exact h.crWrite _
    · show Follows (s.cfgrWrite (value.setWidth 32) false) (a.cfgrWrite (value.setWidth 32))
      unfold RccSpec.cfgrWrite
      split
      · rename_i hv; exact Shows.cfgrWrite_error h false hv
      · rename_i hv; exact h.cfgrWrite false hv
    · exact h.ahbenrWrite _
    · exact h.apb2enrWrite _
    · exact h.apb1enrWrite _
    · exact h.bdcrWrite _
    · exact h.csrWrite _
  · obtain ⟨hs, ha⟩ := writew_other host ho s a value
    rw [hs, ha]
    exact ⟨s, rfl, h⟩

/-- **A write does to the device what it does to the specification.**  The only
    fault is the selection of an invalid system clock. -/
theorem Refines.write (h : s.Refines a) (offset : ℕ) (value : BitVec 64) (size : ℕ) :
    Follows (s.write host offset value size) (a.write host offset value size) := by
  unfold Stm32Rcc.write RccSpec.write
  split
  · exact h.writew offset value
  · exact ⟨s, rfl, h⟩

/-- The part of a reset that follows the write to `CFGR`. -/
theorem Refines.resetEnables (h : s.Refines a) : Reaches (do
    let s ← s.apb2enrWrite host 0x00000000
    let s ← s.apb1enrWrite host 0x00000000
    let s ← s.ahbenrWrite host 0x00000000
    let s ← s.bdcrWrite host 0x00000000
    s.csrWrite host 0x0c000000) (a.resetEnables host) := by
  refine (h.apb2enrWrite _).bind fun s₁ h₁ => ?_
  refine (h₁.apb1enrWrite _).bind fun s₂ h₂ => ?_
  refine (h₂.ahbenrWrite _).bind fun s₃ h₃ => ?_
  exact (h₃.bdcrWrite _).bind fun s₄ h₄ => h₄.csrWrite _

theorem Refines.reset (h : s.Refines a) : Reaches (s.reset host) (a.reset host) := by
  unfold Stm32Rcc.reset
  refine (h.crWrite _).bind fun s₁ h₁ => ?_
  exact (h₁.cfgrWrite true (by decide)).bind fun s₂ h₂ => h₂.resetEnables

theorem Refines.setPeriphClkIrq (h : s.Refines a) {p : Periph} {irq : Irq} {s' : Stm32Rcc}
    (hs : s.setPeriphClkIrq p irq = .ok s') : s'.Refines a := by
  unfold Stm32Rcc.setPeriphClkIrq at hs
  split at hs
  · rename_i c hc
    obtain ⟨t, ht, hs⟩ := Machine.bind_eq_ok.1 hs
    cases hs
    exact ⟨h.sync.adduser (periphClk_gated hc).1 ht, h.regs⟩
  · cases hs

/-- **Every step of the device is a step of the specification.** -/
theorem Refines.step (h : s.Refines a) {o : Op} {s' : Stm32Rcc} (hs : s.step host o = .ok s') :
    ∃ b, a.step host o = some b ∧ s'.Refines b := by
  have hreach : ∀ {b}, Reaches (s.step host o) b → s'.Refines b := by
    rintro b ⟨s'', hs'', hr⟩
    cases hs.symm.trans hs''; exact hr
  cases o with
  | write offset value size =>
    have hw : Follows (s.write host offset value size) _ := h.write offset value size
    cases hb : a.write host offset value size with
    | none => rw [hb] at hw; cases hs.symm.trans hw
    | some b => rw [hb] at hw; exact ⟨b, hb, hreach hw⟩
  | reset => exact ⟨_, rfl, hreach h.reset⟩
  | setPeriphClkIrq p irq => exact ⟨a, rfl, h.setPeriphClkIrq hs⟩
  | setResetFlags v =>
    cases hs
    exact ⟨_, rfl, h.sync, congrArg (fun r : RccRegs => { r with
      CSR_LPWRRSTFb := v >>> 31 != 0
      CSR_WWDGRSTFb := v >>> 30 != 0
      CSR_IWDGRSTFb := v >>> 29 != 0 }) h.regs⟩

/-! ## Power-on -/

theorem initClk_valid (oscFreq osc32Freq : BitVec 32) :
    Graph.empty.ValidAll (initClk oscFreq osc32Freq) := by
  simp [initClk, periphClk, Graph.ValidAll, Graph.Valid, Graph.apply, Graph.add, Graph.empty,
    CLKTREE_NO_INPUT]
  decide

/-- The configuration of the clock tree as initialized. -/
def initGraph (oscFreq osc32Freq : BitVec 32) : Graph :=
  Graph.empty.applyAll (initClk oscFreq osc32Freq)

theorem initGraph_node (oscFreq osc32Freq : BitVec 32) (d : ClkId) :
    (initGraph oscFreq osc32Freq).node d =
      (((initClk oscFreq osc32Freq).filterMap Graph.created)[d]?).getD (Graph.empty.node d) :=
  Graph.applyAll_node (by simp [initClk, periphClk]) Graph.empty d

theorem sync_init (oscFreq osc32Freq : BitVec 32) :
    ∃ t, Machine.run (ClkTree.call 40) .empty (initClk oscFreq osc32Freq) = .ok t ∧
      Sync (initGraph oscFreq osc32Freq) t := by
  have hok : (Machine.run (ClkTree.call 40) .empty (initClk oscFreq osc32Freq)).isOk = true := by cbv
  have hsize : (initGraph oscFreq osc32Freq).size ≤ 40 := by
    change 39 ≤ 40; decide
  rcases run_agrees ClkTree.good_empty agrees_empty (initClk_valid oscFreq osc32Freq) hsize with
    he | ⟨t, ht, hg, ha⟩
  · rw [he] at hok; cases hok
  · refine ⟨t, ht, hg, ha, rfl, fun d hd => ?_, fun d hd h3 => ?_⟩
    all_goals
      rw [initGraph_node]
      unfold CLK_COUNT at hd
      interval_cases d <;> rfl

/-- **The first reset.**  It takes the device as initialized to the power-on
    state of the specification. -/
theorem init_reset (host : Host) (oscFreq osc32Freq : BitVec 32) :
    ∃ s, init oscFreq osc32Freq = .ok s ∧
      Reaches (s.reset host) (RccSpec.powerOn host oscFreq osc32Freq) := by
  obtain ⟨t, ht, hsync⟩ := sync_init oscFreq osc32Freq
  refine ⟨⟨⟨oscFreq, osc32Freq, 0, 0, 0, 0, 0, 0, 0, 0, 0, 0, 0, false, false, false, []⟩, t⟩, ?_, ?_⟩
  · simp only [init]
    rw [show (initClk oscFreq osc32Freq).length = 40 from rfl, ht]; rfl
  · unfold Stm32Rcc.reset
    refine Yields.bind (Shows.crWrite ⟨hsync, rfl⟩ _) fun s₁ h₁ => ?_
    refine Yields.bind (h₁.cfgrWrite _ true (by decide)) fun s₂ h₂ => ?_
    refine Refines.resetEnables (a := ⟨_, _⟩) ⟨h₂.sync.congr rfl (fun d hd => ?_) fun d hd => ?_, h₂.regs⟩
    · unfold CLK_COUNT at hd
      interval_cases d <;> rfl
    · have hd' : ¬ d < CLK_COUNT := Nat.not_lt_of_le hd
      simp [Graph.sel, graph, hd', Graph.empty]

/-! ## Runs -/

/-- The states the device can be in after its initialization and first reset. -/
def Reachable (host : Host) (oscFreq osc32Freq : BitVec 32) (s : Stm32Rcc) : Prop :=
  ∃ s₀ s₁ l, init oscFreq osc32Freq = .ok s₀ ∧ s₀.reset host = .ok s₁ ∧
    Machine.run (step host) s₁ l = .ok s

theorem refines_powerOn {oscFreq osc32Freq : BitVec 32} {s₀ s₁ : Stm32Rcc}
    (h₀ : init oscFreq osc32Freq = .ok s₀) (h₁ : s₀.reset host = .ok s₁) :
    s₁.Refines (RccSpec.powerOn host oscFreq osc32Freq) := by
  obtain ⟨s₀', hs₀', s₁', hs₁', href⟩ := init_reset host oscFreq osc32Freq
  cases h₀.symm.trans hs₀'
  cases h₁.symm.trans hs₁'
  exact href

theorem exists_reachable (host : Host) (oscFreq osc32Freq : BitVec 32) :
    ∃ s, Reachable host oscFreq osc32Freq s := by
  obtain ⟨s₀, hs₀, s₁, hs₁, -⟩ := init_reset host oscFreq osc32Freq
  exact ⟨s₁, s₀, s₁, [], hs₀, hs₁, rfl⟩

/-- **What the operations of the specification keep holds in every reachable
    state of the device.** -/
theorem Reachable.inv {oscFreq osc32Freq : BitVec 32} (h : Reachable host oscFreq osc32Freq s)
    {I : RccSpec → Prop} (h₀ : I (RccSpec.powerOn host oscFreq osc32Freq))
    (hI : ∀ a o b, I a → a.step host o = some b → I b) : ∃ a, s.Refines a ∧ I a := by
  obtain ⟨s₀, s₁, l, hs₀, hs₁, hr⟩ := h
  have href := refines_powerOn hs₀ hs₁
  refine Machine.run_inv (I := fun s => ∃ a : RccSpec, s.Refines a ∧ I a) ?_ ⟨_, href, h₀⟩ hr
  rintro t o u ⟨a, ha, hIa⟩ hu
  obtain ⟨b, hb, hub⟩ := ha.step hu
  exact ⟨b, hub, hI a o b hIa hb⟩

/-- A write that the specification allows leads on from a reachable state. -/
theorem Reachable.write {oscFreq osc32Freq : BitVec 32} (h : Reachable host oscFreq osc32Freq s)
    (hr : s.Refines a) {offset : ℕ} {value : BitVec 64} {size : ℕ}
    (hw : a.write host offset value size = some b) :
    ∃ s', s.write host offset value size = .ok s' ∧ Reachable host oscFreq osc32Freq s' ∧
      s'.Refines b := by
  have hf : Follows (s.write host offset value size) _ := hr.write offset value size
  rw [hw] at hf
  obtain ⟨s', hs', href⟩ := hf
  obtain ⟨s₀, s₁, l, hs₀, hs₁, hl⟩ := h
  refine ⟨s', hs', ⟨s₀, s₁, l ++ [.write offset value size], hs₀, hs₁, ?_⟩, href⟩
  exact Machine.run_snoc_ok.2 ⟨s, hl, hs'⟩

/-- The device after its first reset and a write that the specification allows. -/
theorem exists_write {oscFreq osc32Freq : BitVec 32} {offset : ℕ} {value : BitVec 64} {size : ℕ}
    (hw : (RccSpec.powerOn host oscFreq osc32Freq).write host offset value size = some b) :
    ∃ s₀ s₁ s, init oscFreq osc32Freq = .ok s₀ ∧ s₀.reset host = .ok s₁ ∧
      s₁.write host offset value size = .ok s ∧ Reachable host oscFreq osc32Freq s ∧ s.Refines b := by
  obtain ⟨s₀, hs₀, s₁, hs₁, href⟩ := init_reset host oscFreq osc32Freq
  have hreach : Reachable host oscFreq osc32Freq s₁ := ⟨s₀, s₁, [], hs₀, hs₁, rfl⟩
  obtain ⟨s, hs, hsr, href'⟩ := hreach.write href hw
  exact ⟨s₀, s₁, s, hs₀, hs₁, hs, hsr, href'⟩

/-- The frequencies of a device that refines the specification. -/
theorem Refines.getOutputFreq (h : s.Refines a) {d : ℕ} (hd : d < CLK_COUNT) :
    s.clktree.getOutputFreq d = (graph a.regs a.en).freq d :=
  h.sync.agrees.outputFreq_eq h.sync.good d hd

theorem Refines.isEnabled (h : s.Refines a) {d : ℕ} (hd : Gated d) :
    s.clktree.isEnabled d = a.en d := by
  have hm := (h.sync.agrees.node d hd.1).enabled
  have hn := node_enabled (r := a.regs) hd (a.en d) (a.en d)
  rw [ClkTree.isEnabled, hm]
  simp only [graph, if_pos hd.1]
  rw [← hn]

theorem Refines.ordered (h : s.Refines a) : Forest.Ordered (graph a.regs a.en).sel :=
  h.sync.agrees.ordered h.sync.good

end Stm32Rcc

end Bluepill
