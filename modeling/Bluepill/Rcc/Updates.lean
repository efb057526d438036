/-
  The RCC as calls of the clock tree.

  An access to the RCC changes the clock tree by calls of its mutators only, and
  which calls it can make depends on the value written alone (`updates`).  From a
  tree of the RCC (`Synced`) the calls all return, so that the access returns as
  well (`Acts`), unless it selects an invalid system clock.

  A write to `CFGR` notifies users before it looks at the selected system clock, and
  one to `BDCR` before it switches the clock of the RTC; so they are taken in two
  parts here (`stages`).
-/
import Bluepill.Clktree.Users
import Bluepill.Rcc.Config

namespace Bluepill

open Rcc

/-- A clock tree of the RCC. -/
def ClkTree.Synced (t : ClkTree) : Prop := ∃ g, Sync g t

namespace Stm32Rcc

/-! ## Accesses -/

/-- A device registers for a notification. -/
def Op.registers : Op → Bool
  | .setPeriphClkIrq _ _ => true
  | _ => false

/-- What happens to the RCC once all devices have registered. -/
abbrev Access := { o : Op // o.registers = false }

def Access.write (offset : ℕ) (value : BitVec 64) (size : ℕ) : Access := ⟨.write offset value size, rfl⟩

def Access.reset : Access := ⟨.reset, rfl⟩

/-- `stm32_rcc_RCC_CFGR_write` before its last `switch`. -/
def cfgrPrescale (s : Stm32Rcc) (newValue : BitVec 32) (init : Bool) : Except Fault Stm32Rcc := do
  let newPLLMUL := extract32 newValue 18 4
  let s := s.warnIf (!init && (s.clktree.isEnabled PLLCLK && newPLLMUL != s.CFGR_PLLMUL))
    "Can only change PLLMUL while PLL is disabled"
  assert (newPLLMUL ≤ 0xf)
  let s ← s.update PLLCLK (.scale (pllMultiplier newPLLMUL) 1)
  let s := { s with CFGR_PLLMUL := newPLLMUL }
  let newPLLXTPRE := extract32 newValue 17 1
  let s := s.warnIf (!init && (s.clktree.isEnabled PLLCLK && newPLLXTPRE != s.CFGR_PLLXTPRE))
    "Can only change PLLXTPRE while PLL is disabled"
  let s ← s.update PLLXTPRECLK (.selectedInput newPLLXTPRE.toNat)
  let s := { s with CFGR_PLLXTPRE := newPLLXTPRE }
  let newPLLSRC := extract32 newValue 16 1
  let s := s.warnIf (!init && (s.clktree.isEnabled PLLCLK && newPLLSRC != s.CFGR_PLLSRC))
    "Can only change PLLSRC while PLL is disabled"
  let s ← s.update PLLCLK (.selectedInput newPLLSRC.toNat)
  let s := { s with CFGR_PLLSRC := newPLLSRC }
  let s := { s with CFGR_PPRE2 := (newValue &&& 0x00003c00) >>> 11 }
  let s ← s.update PCLK2 (.scale 1 (ppreDivisor s.CFGR_PPRE2))
  let s := { s with CFGR_PPRE1 := (newValue &&& 0x00000700) >>> 8 }
  let s ← s.update PCLK1 (.scale 1 (ppreDivisor s.CFGR_PPRE1))
  let s := { s with CFGR_HPRE := (newValue &&& 0x000000f0) >>> 4 }
  let s ← s.update HCLK (.scale 1 (hpreDivisor s.CFGR_HPRE))
  .ok { s with CFGR_SW := (newValue &&& 0x00000003) >>> 0 }

/-- The last `switch` of `stm32_rcc_RCC_CFGR_write`. -/
def cfgrSelect (s : Stm32Rcc) : Except Fault Stm32Rcc :=
  if s.CFGR_SW = 0 ∨ s.CFGR_SW = 1 ∨ s.CFGR_SW = 2 then
    s.update SYSCLK (.selectedInput s.CFGR_SW.toNat)
  else .error (.hwError "Invalid input selected for SYSCLK")

theorem cfgrWrite_eq (s : Stm32Rcc) (v : BitVec 32) (init : Bool) :
    s.cfgrWrite v init = s.cfgrPrescale v init >>= cfgrSelect := by
  simp only [cfgrWrite, cfgrPrescale, bind_assoc, Machine.ok_bind]; rfl

/-- `stm32_rcc_RCC_BDCR_write` up to the selection of the input. -/
def bdcrSelect (host : Host) (s : Stm32Rcc) (newValue : BitVec 32) : Except Fault Stm32Rcc := do
  let s ← s.update LSECLK (.enabled (testBIT host newValue 0))
  let s := { s with RTC_SEL := (newValue &&& 0x00000300) >>> 8 }
  s.update RTCCLK (.selectedInput (s.RTC_SEL - 1).toInt)

/-- The rest of `stm32_rcc_RCC_BDCR_write`. -/
def bdcrEnable (s : Stm32Rcc) (newValue : BitVec 32) : Except Fault Stm32Rcc :=
  if s.RTC_SEL ≠ 0 then s.update RTCCLK (.enabled ((newValue >>> 15 &&& 0x01) != 0)) else .ok s

theorem bdcrWrite_eq (host : Host) (s : Stm32Rcc) (v : BitVec 32) :
    s.bdcrWrite host v = s.bdcrSelect host v >>= fun s => s.bdcrEnable v := by
  simp only [bdcrWrite, bdcrSelect, bind_assoc]; rfl

/-- An operation as the parts after which its notifications have been handled. -/
def stages (host : Host) : Op → List (Stm32Rcc → Except Fault Stm32Rcc)
  | .write 0x04 value 4 => [fun s => s.cfgrPrescale (value.setWidth 32) false, cfgrSelect]
  | .write 0x20 value 4 =>
    [fun s => s.bdcrSelect host (value.setWidth 32), fun s => s.bdcrEnable (value.setWidth 32)]
  | o => [fun s => s.step host o]

theorem stages_step (host : Host) (s : Stm32Rcc) (o : Op) :
    (stages host o).foldlM (fun s f => f s) s = s.step host o := by
  unfold stages
  split
  · rename_i value
    show (s.cfgrPrescale _ false >>= fun s => cfgrSelect s >>= pure) = s.cfgrWrite _ false
    rw [cfgrWrite_eq]; simp
  · rename_i value
    show (s.bdcrSelect host _ >>= fun s => s.bdcrEnable _ >>= pure) = s.bdcrWrite host _
    rw [bdcrWrite_eq]; simp
  · exact bind_pure _

/-! ## Calls -/

def crUpdates (host : Host) (v : BitVec 32) : List (ClkId × Update) :=
  [(PLLCLK, .enabled (testBIT host v 24)), (HSECLK, .enabled (testBIT host v 16)),
   (HSICLK, .enabled (testBIT host v 0))]

def cfgrUpdates (v : BitVec 32) : List (ClkId × Update) :=
  [(PLLCLK, .scale (pllMultiplier (extract32 v 18 4)) 1),
   (PLLXTPRECLK, .selectedInput (extract32 v 17 1).toNat),
   (PLLCLK, .selectedInput (extract32 v 16 1).toNat),
   (PCLK2, .scale 1 (ppreDivisor ((v &&& 0x00003c00) >>> 11))),
   (PCLK1, .scale 1 (ppreDivisor ((v &&& 0x00000700) >>> 8))),
   (HCLK, .scale 1 (hpreDivisor ((v &&& 0x000000f0) >>> 4))),
   (SYSCLK, .selectedInput 0), (SYSCLK, .selectedInput 1), (SYSCLK, .selectedInput 2)]

def enableUpdates (host : Host) (v : BitVec 32) (l : List (Periph × ℕ)) : List (ClkId × Update) :=
  l.filterMap fun p => (PERIPHCLK p.1).map fun c => (c, .enabled (testBIT host v p.2))

def bdcrUpdates (host : Host) (v : BitVec 32) : List (ClkId × Update) :=
  [(LSECLK, .enabled (testBIT host v 0)),
   (RTCCLK, .selectedInput ((v &&& 0x00000300) >>> 8 - 1).toInt),
   (RTCCLK, .enabled ((v >>> 15 &&& 0x01) != 0))]

def csrUpdates (host : Host) (v : BitVec 32) : List (ClkId × Update) :=
  [(LSICLK, .enabled (testBIT host v 0))]

/-- The calls an operation can make. -/
def updates (host : Host) : Op → List (ClkId × Update)
  | .write offset value size =>
    if size = 4 then
      match offset with
      | 0x00 => crUpdates host (value.setWidth 32)
      | 0x04 => cfgrUpdates (value.setWidth 32)
      | 0x14 => enableUpdates host (value.setWidth 32) ahbPeriphs
      | 0x18 => enableUpdates host (value.setWidth 32) apb2Periphs
      | 0x1c => enableUpdates host (value.setWidth 32) apb1Periphs
      | 0x20 => bdcrUpdates host (value.setWidth 32)
      | 0x24 => csrUpdates host (value.setWidth 32)
      | _ => []
    else []
  | .reset =>
    crUpdates host 0x00000083 ++ cfgrUpdates 0 ++ enableUpdates host 0 apb2Periphs ++
      enableUpdates host 0 apb1Periphs ++ enableUpdates host 0 ahbPeriphs ++ bdcrUpdates host 0 ++
      csrUpdates host 0x0c000000
  | .setPeriphClkIrq _ _ | .setResetFlags _ => []

/-- The only failure of an access. -/
def badSysclk : Fault := .hwError "Invalid input selected for SYSCLK"

/-- The computation returns after calls that meet `A`, or reports an invalid system
    clock. -/
def Acts (A : ClkId → Update → Prop) (t : ClkTree) : Except Fault Stm32Rcc → Prop :=
  Machine.Post (fun s => t.Steps A s.clktree) (· = badSysclk)

variable {A : ClkId → Update → Prop} {s : Stm32Rcc} {t u : ClkTree} {x : Except Fault Stm32Rcc}
  {host : Host} {v : BitVec 32} {c : ClkId} {m : Update}

theorem Acts.bind {f : Stm32Rcc → Except Fault Stm32Rcc} (h : Acts A t x)
    (hf : ∀ s, t.Steps A s.clktree → Acts A s.clktree (f s)) : Acts A t (x >>= f) :=
  Machine.Post.bind h fun s _ hs => (hf s hs).mono (fun _ => Relation.ReflTransGen.trans hs) fun _ he => he

@[simp] theorem warnIf_clktree (s : Stm32Rcc) (b : Bool) (msg : String) :
    (s.warnIf b msg).clktree = s.clktree := by unfold warnIf; split <;> rfl

section
variable (hA : ∀ c m, A c m → Allowed c m)
include hA

/-- The configuration follows an allowed call. -/
theorem step_sync {g : Graph} (h : Sync g t) (hs : t.Step A u) :
    ∃ c m, A c m ∧ Sync (g.apply (.update c m)) u := by
  obtain ⟨c, m, -, ha, hu⟩ := hs
  obtain ⟨u, hu', hgood, hagr⟩ :=
    update_agrees h.good h.agrees (h.valid (hA c m ha)) h.agrees.size.ge
  cases hu.symm.trans hu'
  exact ⟨c, m, ha, h.apply hgood hagr⟩

theorem steps_synced (h : t.Synced) (hs : t.Steps A u) : u.Synced := by
  induction hs with
  | refl => exact h
  | tail _ hstep ih =>
    obtain ⟨g, hg⟩ := ih
    obtain ⟨c, m, -, hsync⟩ := step_sync hA hg hstep
    exact ⟨_, hsync⟩

/-- An allowed call returns. -/
theorem acts_update (ht : s.clktree = t) (h : t.Synced) (ha : A c m) :
    Acts A t (s.update c m) := by
  subst ht
  obtain ⟨g, hg⟩ := h
  have hv := hg.valid (hA c m ha)
  obtain ⟨u, hu, -, -⟩ := update_agrees hg.good hg.agrees hv hg.agrees.size.ge
  have hc : c < s.clktree.size := by
    rw [hg.agrees.size]
    cases m with
    | scale | selectedInput => exact hv.1
    | enabled => exact hv
  rw [Stm32Rcc.update, hu]
  exact Relation.ReflTransGen.single ⟨c, m, hc, ha, hu⟩

theorem acts_update_bind {f : Stm32Rcc → Except Fault Stm32Rcc} (ht : s.clktree = t) (h : t.Synced)
    (ha : A c m) (hf : ∀ s', s'.clktree.Synced → Acts A s'.clktree (f s')) :
    Acts A t (s.update c m >>= f) :=
  (acts_update hA ht h ha).bind fun s' hs' => hf s' (steps_synced hA h hs')

theorem crWrite_acts (h : s.clktree.Synced) (hu : ∀ m ∈ crUpdates host v, A m.1 m.2) :
    Acts A s.clktree (s.crWrite host v) := by
  simp only [crUpdates, List.forall_mem_cons] at hu
  obtain ⟨hPLL, hHSE, hHSI, -⟩ := hu
  unfold crWrite
  refine acts_update_bind hA (warnIf_clktree _ _ _) h hPLL fun s₁ h₁ => ?_
  refine acts_update_bind hA (warnIf_clktree _ _ _) h₁ hHSE fun s₂ h₂ => ?_
  exact acts_update hA (warnIf_clktree _ _ _) h₂ hHSI

theorem cfgrPrescale_acts (h : s.clktree.Synced) (hu : ∀ m ∈ cfgrUpdates v, A m.1 m.2)
    (init : Bool) : Acts A s.clktree (s.cfgrPrescale v init) := by
  simp only [cfgrUpdates, List.forall_mem_cons] at hu
  obtain ⟨hMUL, hXTPRE, hSRC, hPPRE2, hPPRE1, hHPRE, -⟩ := hu
  have hmul : extract32 v 18 4 ≤ 0xf :=
    Nat.le_of_lt_succ (Word.toNat_extract_lt v 18 (show 4 ≤ 32 by decide))
  unfold cfgrPrescale
  simp only [assert_of hmul, Machine.ok_bind]
  refine acts_update_bind hA (warnIf_clktree _ _ _) h hMUL fun s₁ h₁ => ?_
  refine acts_update_bind hA (warnIf_clktree _ _ _) h₁ hXTPRE fun s₂ h₂ => ?_
  refine acts_update_bind hA (warnIf_clktree _ _ _) h₂ hSRC fun s₃ h₃ => ?_
  refine acts_update_bind hA rfl h₃ hPPRE2 fun s₄ h₄ => ?_
  refine acts_update_bind hA rfl h₄ hPPRE1 fun s₅ h₅ => ?_
  exact acts_update_bind hA rfl h₅ hHPRE fun s₆ h₆ => Relation.ReflTransGen.refl

theorem cfgrSelect_acts (h : s.clktree.Synced) (hu : ∀ m ∈ cfgrUpdates v, A m.1 m.2) :
    Acts A s.clktree s.cfgrSelect := by
  simp only [cfgrUpdates, List.forall_mem_cons] at hu
  obtain ⟨-, -, -, -, -, -, h0, h1, h2, -⟩ := hu
  unfold cfgrSelect
  split
  · rename_i hsw
    refine acts_update hA rfl h ?_
    rcases hsw with hsw | hsw | hsw <;> rw [hsw]
    · exact h0
    · exact h1
    · exact h2
  · rfl

theorem cfgrWrite_acts (h : s.clktree.Synced) (hu : ∀ m ∈ cfgrUpdates v, A m.1 m.2) (init : Bool) :
    Acts A s.clktree (s.cfgrWrite v init) := by
  rw [cfgrWrite_eq]
  exact (cfgrPrescale_acts hA h hu init).bind fun s₁ h₁ => cfgrSelect_acts hA (steps_synced hA h h₁) hu

theorem enables_acts {l : List (Periph × ℕ)} : ∀ {s : Stm32Rcc}, s.clktree.Synced →
    (∀ p ∈ l, (PERIPHCLK p.1).isSome) → (∀ m ∈ enableUpdates host v l, A m.1 m.2) →
    Acts A s.clktree (l.foldlM (periphEnable host v) s) := by
  induction l with
  | nil => intro s h _ _; exact Relation.ReflTransGen.refl
  | cons p l ih =>
    intro s h hl hu
    obtain ⟨c, hc⟩ := Option.isSome_iff_exists.1 (hl p List.mem_cons_self)
    simp only [enableUpdates, List.filterMap_cons, hc, Option.map_some, List.forall_mem_cons] at hu
    rw [List.foldlM_cons]
    have hp : Acts A s.clktree (periphEnable host v s p) := by
      rw [periphEnable, hc]; exact acts_update hA rfl h hu.1
    exact hp.bind fun s₁ h₁ =>
      ih (steps_synced hA h h₁) (fun q hq => hl q (List.mem_cons_of_mem p hq)) hu.2

theorem apb2enrWrite_acts (h : s.clktree.Synced)
    (hu : ∀ m ∈ enableUpdates host v apb2Periphs, A m.1 m.2) :
    Acts A s.clktree (s.apb2enrWrite host v) :=
  (enables_acts hA h (by decide) hu).bind fun _ _ => Relation.ReflTransGen.refl

theorem apb1enrWrite_acts (h : s.clktree.Synced)
    (hu : ∀ m ∈ enableUpdates host v apb1Periphs, A m.1 m.2) :
    Acts A s.clktree (s.apb1enrWrite host v) :=
  (enables_acts hA h (by decide) hu).bind fun _ _ => Relation.ReflTransGen.refl

theorem ahbenrWrite_acts (h : s.clktree.Synced)
    (hu : ∀ m ∈ enableUpdates host v ahbPeriphs, A m.1 m.2) :
    Acts A s.clktree (s.ahbenrWrite host v) :=
  (enables_acts hA h (by decide) hu).bind fun _ _ => Relation.ReflTransGen.refl

theorem bdcrSelect_acts (h : s.clktree.Synced) (hLSE : A LSECLK (.enabled (testBIT host v 0)))
    (hSEL : A RTCCLK (.selectedInput ((v &&& 0x00000300) >>> 8 - 1).toInt)) :
    Acts A s.clktree (s.bdcrSelect host v) :=
  acts_update_bind hA rfl h hLSE fun _ h₁ => acts_update hA rfl h₁ hSEL

theorem bdcrEnable_acts (h : s.clktree.Synced) (hEN : A RTCCLK (.enabled ((v >>> 15 &&& 0x01) != 0))) :
    Acts A s.clktree (s.bdcrEnable v) := by
  unfold bdcrEnable
  split
  · exact acts_update hA rfl h hEN
  · exact Relation.ReflTransGen.refl

theorem bdcrWrite_acts (h : s.clktree.Synced) (hu : ∀ m ∈ bdcrUpdates host v, A m.1 m.2) :
    Acts A s.clktree (s.bdcrWrite host v) := by
  simp only [bdcrUpdates, List.forall_mem_cons] at hu
  obtain ⟨hLSE, hSEL, hEN, -⟩ := hu
  rw [bdcrWrite_eq]
  exact (bdcrSelect_acts hA h hLSE hSEL).bind fun s₁ h₁ => bdcrEnable_acts hA (steps_synced hA h h₁) hEN

theorem csrWrite_acts (h : s.clktree.Synced) (hu : ∀ m ∈ csrUpdates host v, A m.1 m.2) :
    Acts A s.clktree (s.csrWrite host v) :=
  acts_update hA rfl h (hu _ List.mem_cons_self)

theorem writew_acts (h : s.clktree.Synced) (offset : ℕ) (value : BitVec 64)
    (hu : ∀ m ∈ updates host (.write offset value 4), A m.1 m.2) :
    Acts A s.clktree (s.writew host offset value) := by
  unfold writew
  split
  · exact crWrite_acts hA h hu
  · exact cfgrWrite_acts hA h hu false
  · exact ahbenrWrite_acts hA h hu
  · exact apb2enrWrite_acts hA h hu
  · exact apb1enrWrite_acts hA h hu
  · exact bdcrWrite_acts hA h hu
  · exact csrWrite_acts hA h hu
  · exact Relation.ReflTransGen.refl

theorem reset_acts (h : s.clktree.Synced) (hu : ∀ m ∈ updates host .reset, A m.1 m.2) :
    Acts A s.clktree (s.reset host) := by
  simp only [updates, List.forall_mem_append, and_assoc] at hu
  obtain ⟨hCR, hCFGR, hAPB2, hAPB1, hAHB, hBDCR, hCSR⟩ := hu
  unfold reset
  refine (crWrite_acts hA h hCR).bind fun s₁ h₁ => ?_
  replace h₁ := steps_synced hA h h₁
  refine (cfgrWrite_acts hA h₁ hCFGR true).bind fun s₂ h₂ => ?_
  replace h₂ := steps_synced hA h₁ h₂
  refine (apb2enrWrite_acts hA h₂ hAPB2).bind fun s₃ h₃ => ?_
  replace h₃ := steps_synced hA h₂ h₃
  refine (apb1enrWrite_acts hA h₃ hAPB1).bind fun s₄ h₄ => ?_
  replace h₄ := steps_synced hA h₃ h₄
  refine (ahbenrWrite_acts hA h₄ hAHB).bind fun s₅ h₅ => ?_
  replace h₅ := steps_synced hA h₄ h₅
  refine (bdcrWrite_acts hA h₅ hBDCR).bind fun s₆ h₆ => ?_
  exact csrWrite_acts hA (steps_synced hA h₅ h₆) hCSR

/-- **An access changes the clock tree by these calls.** -/
theorem step_acts (h : s.clktree.Synced) (o : Access) (hu : ∀ m ∈ updates host o.1, A m.1 m.2) :
    Acts A s.clktree (s.step host o.1) := by
  obtain ⟨o, ho⟩ := o
  cases o with
  | write offset value size =>
    show Acts A s.clktree (if size = 4 then _ else _)
    split
    · rename_i hsize; subst hsize; exact writew_acts hA h offset value hu
    · exact Relation.ReflTransGen.refl
  | reset => exact reset_acts hA h hu
  | setPeriphClkIrq p irq => cases ho
  | setResetFlags v => exact Relation.ReflTransGen.refl

/-- So does each part of it. -/
theorem stages_acts {f : Stm32Rcc → Except Fault Stm32Rcc} (h : s.clktree.Synced) (o : Access)
    (hu : ∀ m ∈ updates host o.1, A m.1 m.2) (hf : f ∈ stages host o.1) :
    Acts A s.clktree (f s) := by
  unfold stages at hf
  split at hf
  · rename_i value ho
    have hu' : ∀ m ∈ cfgrUpdates (value.setWidth 32), A m.1 m.2 := by rw [ho] at hu; exact hu
    simp only [List.mem_cons, List.not_mem_nil, or_false] at hf
    rcases hf with rfl | rfl
    · exact cfgrPrescale_acts hA h hu' false
    · exact cfgrSelect_acts hA h hu'
  · rename_i value ho
    have hu' : ∀ m ∈ bdcrUpdates host (value.setWidth 32), A m.1 m.2 := by rw [ho] at hu; exact hu
    simp only [bdcrUpdates, List.forall_mem_cons] at hu'
    obtain ⟨hLSE, hSEL, hEN, -⟩ := hu'
    simp only [List.mem_cons, List.not_mem_nil, or_false] at hf
    rcases hf with rfl | rfl
    · exact bdcrSelect_acts hA h hLSE hSEL
    · exact bdcrEnable_acts hA h hEN
  · rw [List.mem_singleton] at hf
    subst hf
    exact step_acts hA h o hu

end

/-! ## The range of the calls -/

/-- The calls the RCC makes, with the scales it sets. -/
def Ranged (c : ClkId) : Update → Prop
  | .scale mul div =>
    c = PLLCLK ∧ 2 ≤ mul.toNat ∧ mul.toNat ≤ 16 ∧ div = 1 ∨
      c = HCLK ∧ mul = 1 ∧ 0 < div.toNat ∧ div.toNat ≤ 16 ∨
      (c = PCLK1 ∨ c = PCLK2) ∧ mul = 1 ∧ 0 < div.toNat ∧ div.toNat ≤ 8
  | .enabled _ => c < CLK_COUNT
  | .selectedInput i => c < CLK_COUNT ∧ 3 < c ∧ -1 ≤ i ∧ i < (inputs c).length

theorem Ranged.allowed (h : Ranged c m) : Allowed c m := by
  cases m with
  | scale mul div =>
    rcases h with ⟨rfl, -, -, rfl⟩ | ⟨rfl, -, hpos, -⟩ | ⟨rfl | rfl, -, hpos, -⟩
    · exact ⟨by decide, by decide⟩
    all_goals exact ⟨by decide, fun h0 => by rw [h0] at hpos; exact absurd hpos (by decide)⟩
  | enabled b => exact h
  | selectedInput i => exact h

theorem pllMultiplier_range {n : BitVec 32} (h : n.toNat < 16) :
    2 ≤ (pllMultiplier n).toNat ∧ (pllMultiplier n).toNat ≤ 16 := by
  obtain ⟨n, hn, rfl⟩ : ∃ k < 16, n = BitVec.ofNat 32 k := ⟨n.toNat, h, by simp⟩
  interval_cases n <;> decide

theorem cfgrUpdates_ranged (v : BitVec 32) : ∀ m ∈ cfgrUpdates v, Ranged m.1 m.2 := by
  have hmul := pllMultiplier_range (Word.toNat_extract_lt v 18 (show 4 ≤ 32 by decide))
  have hxt : (extract32 v 17 1).toNat < 2 := Word.toNat_extract_lt v 17 (by decide)
  have hsrc : (extract32 v 16 1).toNat < 2 := Word.toNat_extract_lt v 16 (by decide)
  have hppre : ∀ n : BitVec 32, n.toNat ≤ 7 → 0 < (ppreDivisor n).toNat ∧ (ppreDivisor n).toNat ≤ 8 := by
    intro n hn
    rw [toNat_ppreDivisor (Nat.lt_succ_of_le hn)]
    split <;> omega
  have hhpre : ∀ n : BitVec 32, n.toNat ≤ 15 → 0 < (hpreDivisor n).toNat ∧ (hpreDivisor n).toNat ≤ 16 := by
    intro n hn
    rw [toNat_hpreDivisor (Nat.lt_succ_of_le hn)]
    split <;> omega
  simp only [cfgrUpdates, List.forall_mem_cons]
  refine ⟨.inl ⟨rfl, hmul.1, hmul.2, rfl⟩, ⟨by decide, by decide, by omega, ?_⟩,
    ⟨by decide, by decide, by omega, ?_⟩,
    .inr (.inr ⟨.inr rfl, rfl, hppre _ (Word.toNat_and_shiftRight_le v 0x00003c00 11)⟩),
    .inr (.inr ⟨.inl rfl, rfl, hppre _ (Word.toNat_and_shiftRight_le v 0x00000700 8)⟩),
    .inr (.inl ⟨rfl, rfl, hhpre _ (Word.toNat_and_shiftRight_le v 0x000000f0 4)⟩),
    ⟨by decide, by decide, by decide, by decide⟩, ⟨by decide, by decide, by decide, by decide⟩,
    ⟨by decide, by decide, by decide, by decide⟩, by simp⟩
  · exact Int.ofNat_lt.2 hxt
  · exact Int.ofNat_lt.2 hsrc

theorem enableUpdates_ranged (v : BitVec 32) (l : List (Periph × ℕ)) :
    ∀ m ∈ enableUpdates host v l, Ranged m.1 m.2 := by
  intro m hm
  obtain ⟨p, -, hp⟩ := List.mem_filterMap.1 hm
  obtain ⟨c, hc, rfl⟩ := Option.map_eq_some_iff.1 hp
  show c < CLK_COUNT
  cases hp' : p.1 <;> rw [hp'] at hc <;> cases hc <;> decide

theorem bdcrUpdates_ranged (v : BitVec 32) : ∀ m ∈ bdcrUpdates host v, Ranged m.1 m.2 := by
  have hsel := rtcSel_range (Nat.lt_succ_of_le (Word.toNat_and_shiftRight_le v 0x00000300 8))
  simp only [bdcrUpdates, List.forall_mem_cons]
  exact ⟨show LSECLK < CLK_COUNT by decide, ⟨by decide, by decide, hsel.1, hsel.2⟩,
    show RTCCLK < CLK_COUNT by decide, by simp⟩

theorem crUpdates_ranged (v : BitVec 32) : ∀ m ∈ crUpdates host v, Ranged m.1 m.2 := by
  simp only [crUpdates, List.forall_mem_cons]
  exact ⟨show PLLCLK < CLK_COUNT by decide, show HSECLK < CLK_COUNT by decide,
    show HSICLK < CLK_COUNT by decide, by simp⟩

theorem csrUpdates_ranged (v : BitVec 32) : ∀ m ∈ csrUpdates host v, Ranged m.1 m.2 := by
  simp only [csrUpdates, List.forall_mem_cons]
  exact ⟨show LSICLK < CLK_COUNT by decide, by simp⟩

theorem updates_ranged (o : Op) : ∀ m ∈ updates host o, Ranged m.1 m.2 := by
  cases o with
  | write offset value size =>
    simp only [updates]
    split
    · split
      · exact crUpdates_ranged _
      · exact cfgrUpdates_ranged _
      · exact enableUpdates_ranged _ _
      · exact enableUpdates_ranged _ _
      · exact enableUpdates_ranged _ _
      · exact bdcrUpdates_ranged _
      · exact csrUpdates_ranged _
      · simp
    · simp
  | reset =>
    simp only [updates, List.forall_mem_append, and_assoc]
    exact ⟨crUpdates_ranged _, cfgrUpdates_ranged _, enableUpdates_ranged _ _,
      enableUpdates_ranged _ _, enableUpdates_ranged _ _, bdcrUpdates_ranged _, csrUpdates_ranged _⟩
  | setPeriphClkIrq p irq => simp [updates]
  | setResetFlags v => simp [updates]

end Stm32Rcc

end Bluepill
