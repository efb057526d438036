/-
  The interrupt line of a timer.

  The line should be `UIF` and `UIE`.  It is driven whenever `UIF` changes, with
  the value of `UIF`, and `UIE` is not looked at (`step_lines`).  So it is right
  as long as `UIF` is set only while `UIE` is: `irq_iff` says for each operation
  what that takes.

  A write to `SR` should clear the flags that are `0` in the value written.  It
  does, but it also sets those that were clear already (`sr_write_iff`).
-/
import Bluepill.Rcc.Spec
import Bluepill.Timer

namespace Bluepill

namespace Stm32Timer

/-- The update interrupt flag, and its enable bit. -/
def UIF (s : Stm32Timer) : Bool := s.sr.getLsbD 0
def UIE (s : Stm32Timer) : Bool := s.dier.getLsbD 0

/-- The level of the interrupt, and what should decide it. -/
structure Lines where
  irq : Bool
  UIF : Bool
  UIE : Bool

def lines (s : Stm32Timer) : Lines := ⟨s.irq, s.UIF, s.UIE⟩

/-- The effect of an operation. -/
def Lines.after (l : Lines) (scheduled : Bool) : Op → Lines
  | .write 0x0c value => { l with UIE := value.getLsbD 0 }
  | .write 0x10 value => { l with irq := l.UIF == value.getLsbD 0, UIF := l.UIF == value.getLsbD 0 }
  | .tick => if scheduled then { l with irq := true, UIF := true } else l
  | _ => l

variable {env : TimerEnv} {s t : Stm32Timer}

theorem updateUIF_lines (s : Stm32Timer) (b : Bool) :
    (s.updateUIF b).lines = { s.lines with irq := b, UIF := b } := by
  have hbit : (s.sr &&& ~~~ 0x1 ||| (BitVec.ofBool b).setWidth 32).getLsbD 0 = b := by
    cases b <;> simp
  simp only [lines, UIF, UIE, updateUIF, hbit]

theorem srWrite_lines (s : Stm32Timer) (value : BitVec 64) : (s.srWrite value).lines =
    { s.lines with irq := s.UIF == value.getLsbD 0, UIF := s.UIF == value.getLsbD 0 } := by
  have hbit : ((s.sr ^^^ (value ^^^ 0xFFFF).setWidth 32) &&& 0x1eFF).getLsbD 0 =
      (s.UIF == value.getLsbD 0) := by
    rw [BitVec.getLsbD_and, BitVec.getLsbD_xor, BitVec.getLsbD_setWidth, BitVec.getLsbD_xor,
      show (0x1eFF : BitVec 32).getLsbD 0 = true from rfl,
      show (0xFFFF : BitVec 64).getLsbD 0 = true from rfl]
    unfold UIF
    cases s.sr.getLsbD 0 <;> cases value.getLsbD 0 <;> rfl
  unfold srWrite
  dsimp only
  rw [updateUIF_lines, hbit]; rfl

theorem egrWrite_lines (s : Stm32Timer) (value : BitVec 64) :
    (egrWrite env s value).lines = s.lines := by
  have hbit : (if value &&& 0x40 ≠ 0 then s.sr ||| 0x40 else s.sr).getLsbD 0 = s.sr.getLsbD 0 := by
    split <;> simp
  unfold egrWrite
  dsimp only
  split <;> simp only [lines, UIF, UIE, hbit]

theorem update_lines (h : update env s = .ok t) : t.lines = s.lines := by
  obtain ⟨_, rfl⟩ := update_eq h; rfl

theorem tick_lines (h : tick env s = .ok t) :
    t.lines = { s.lines with irq := true, UIF := true } := by
  obtain ⟨_, _, _, rfl⟩ := tick_eq h
  exact updateUIF_lines s true

/-- **What an operation does to the line.** -/
theorem step_lines {o : TimerEnv × Op} (h : step s o = .ok t) :
    t.lines = s.lines.after s.timer.bh o.2 := by
  obtain ⟨env, o⟩ := o
  cases o with
  | read offset => rw [step_read h]; rfl
  | write offset value =>
    change write env s offset value = .ok t at h
    unfold write at h
    split at h
    case h_1 => exact (update_lines h).trans rfl
    case h_2 =>
      cases h
      have hbit : ((value &&& 0x5F5F).setWidth 32).getLsbD 0 = value.getLsbD 0 := by simp
      show Lines.mk _ _ (((value &&& 0x5F5F).setWidth 32).getLsbD 0) = _
      rw [hbit]; rfl
    case h_3 => cases h; exact srWrite_lines s value
    case h_4 => cases h; exact egrWrite_lines s value
    case h_9 => obtain ⟨_, rfl⟩ := freq_eq h; rfl
    case h_15 hDIER hSR _ _ _ _ _ _ _ _ _ _ _ =>
      cases h
      unfold Lines.after
      split
      · rename_i heq; cases heq; exact absurd rfl hDIER
      · rename_i heq; cases heq; exact absurd rfl hSR
      · rename_i heq; cases heq
      · rfl
    all_goals cases h; rfl
  | clkIrq level =>
    obtain ⟨_, rfl⟩ := freq_eq (step_clkIrq h); rfl
  | expire =>
    cases h
    show Stm32Timer.lines (if _ then _ else _) = _
    split <;> rfl
  | tick =>
    rcases step_tick h with ⟨hbh, h⟩ | ⟨hbh, rfl⟩
    · rw [tick_lines h]
      simp [Lines.after, hbh]; rfl
    · simp [Lines.after, hbh]

/-- The operations that leave the line right: ticks with the interrupt enabled,
    writes to `SR` that clear the flag or find the interrupt enabled, writes to
    `DIER` that enable it or find the flag clear, and all others. -/
def KeepsIrq (s : Stm32Timer) : Op → Prop
  | .tick => s.timer.bh = true → s.UIE = true
  | .write 0x0c value => s.UIF = true → value.getLsbD 0 = true
  | .write 0x10 value => s.UIF = value.getLsbD 0 → s.UIE = true
  | _ => True

/-- The line always has the level of the flag. -/
theorem step_irq_eq_UIF {o : TimerEnv × Op} (hs : s.irq = s.UIF) (h : step s o = .ok t) :
    t.irq = t.UIF := by
  have hl := step_lines h
  have hirq : t.irq = (s.lines.after s.timer.bh o.2).irq := congrArg Lines.irq hl
  have hUIF : t.UIF = (s.lines.after s.timer.bh o.2).UIF := congrArg Lines.UIF hl
  rw [hirq, hUIF]
  unfold Lines.after
  split
  · exact hs
  · rfl
  · split
    · rfl
    · exact hs
  · exact hs

/-- **From a state with the right level an operation leads to one exactly if it
    is one of these.** -/
theorem right_step_iff {o : TimerEnv × Op} (hs : s.irq = s.UIF) (hr : s.irq = (s.UIF && s.UIE))
    (h : step s o = .ok t) : t.irq = (t.UIF && t.UIE) ↔ s.KeepsIrq o.2 := by
  have hl := step_lines h
  have hirq : t.irq = (s.lines.after s.timer.bh o.2).irq := congrArg Lines.irq hl
  have hUIF : t.UIF = (s.lines.after s.timer.bh o.2).UIF := congrArg Lines.UIF hl
  have hUIE : t.UIE = (s.lines.after s.timer.bh o.2).UIE := congrArg Lines.UIE hl
  rw [hirq, hUIF, hUIE]
  generalize o.2 = op
  unfold Lines.after
  split
  · rename_i value
    show s.irq = (s.UIF && value.getLsbD 0) ↔ (s.UIF = true → value.getLsbD 0 = true)
    rw [hs]
    cases s.UIF <;> cases value.getLsbD 0 <;> decide
  · rename_i value
    show (s.UIF == value.getLsbD 0) = ((s.UIF == value.getLsbD 0) && s.UIE) ↔
      (s.UIF = value.getLsbD 0 → s.UIE = true)
    cases s.UIF <;> cases value.getLsbD 0 <;> cases s.UIE <;> decide
  · show _ ↔ (s.timer.bh = true → s.UIE = true)
    split
    · rename_i hbh
      show true = (true && s.UIE) ↔ _
      rw [Bool.true_and, eq_comm]
      exact ⟨fun h' _ => h', fun h' => h' hbh⟩
    · rename_i hbh
      exact ⟨fun _ h' => absurd h' hbh, fun _ => hr⟩
  · rename_i hDIER hSR htick
    refine ⟨fun _ => ?_, fun _ => hr⟩
    unfold KeepsIrq
    split
    · exact absurd rfl htick
    · exact absurd rfl (hDIER _)
    · exact absurd rfl (hSR _)
    · trivial

theorem init_lines (periph : Periph) : (init periph).lines = ⟨false, false, false⟩ := by
  simp [lines, init, UIF, UIE]

/-- **The interrupt line of a timer** is `UIF` and `UIE` along a run exactly if
    the flag is never set, and the interrupt never disabled, so that the flag is
    set while the interrupt is disabled. -/
theorem irq_iff {periph : Periph} {l : List (TimerEnv × Op)} {u : Stm32Timer}
    (h : Machine.run step (init periph) l = .ok u) :
    (∀ t, Machine.Visits step (init periph) l t → t.irq = (t.sr.getLsbD 0 && t.dier.getLsbD 0)) ↔
      ∀ t o, Machine.Takes step (init periph) l t o → t.KeepsIrq o.2 := by
  have hUIF : (init periph).UIF = false := congrArg Lines.UIF (init_lines periph)
  refine Machine.visits_iff_takes (I := fun s => s.irq = s.UIF) (fun _ _ _ hs => step_irq_eq_UIF hs)
    (fun _ _ _ hs hr => right_step_iff hs hr) hUIF.symm ?_ h
  show false = ((init periph).UIF && (init periph).UIE)
  rw [hUIF]; rfl

/-- The interrupt is enabled, and then the flag set by a write to `SR`. -/
theorem irq_iff_enabled : ∃ rcc u, Stm32Rcc.Reachable zeroHost 8000000 32768 rcc ∧
    Machine.run step (init .TIM2) [(⟨rcc, 0⟩, .write 0x0c 1), (⟨rcc, 0⟩, .write 0x10 0)] = .ok u ∧
    u.irq = true ∧ u.irq = (u.sr.getLsbD 0 && u.dier.getLsbD 0) := by
  obtain ⟨rcc, hrcc⟩ := Stm32Rcc.exists_reachable zeroHost 8000000 32768
  have hrun : Machine.run step (init .TIM2) [(⟨rcc, 0⟩, .write 0x0c 1), (⟨rcc, 0⟩, .write 0x10 0)] =
      .ok _ := rfl
  refine ⟨rcc, _, hrcc, hrun, by decide, ?_⟩
  refine (irq_iff hrun).2 (fun t o ho => ?_) _ ⟨_, [], (List.append_nil _).symm, hrun⟩
  rcases Machine.takes_cons ho with ⟨rfl, rfl⟩ | ⟨t₁, ht₁, ho⟩
  · intro _; decide
  cases ht₁
  rcases Machine.takes_cons ho with ⟨rfl, rfl⟩ | ⟨t₂, -, l₁, l₂, hl, -⟩
  · intro _; rfl
  · simp at hl

/-- A write to `SR` sets the flag, and with it the line, while the interrupt is
    not enabled. -/
theorem not_irq_srWrite : ∃ rcc u, Stm32Rcc.Reachable zeroHost 8000000 32768 rcc ∧
    Machine.run step (init .TIM2) [(⟨rcc, 0⟩, .write 0x10 0)] = .ok u ∧
    u.irq = true ∧ (u.sr.getLsbD 0 && u.dier.getLsbD 0) = false := by
  obtain ⟨rcc, hrcc⟩ := Stm32Rcc.exists_reachable zeroHost 8000000 32768
  exact ⟨rcc, _, hrcc, rfl, by decide, by decide⟩

/-! ## Clearing flags -/

/-- Storing a bit as it is. -/
theorem store_UIF (x : BitVec 32) : x &&& ~~~ 0x1 ||| (BitVec.ofBool (x.getLsbD 0)).setWidth 32 = x := by
  have hmask : ∀ i < 32, (~~~ 0x1 : BitVec 32).getLsbD i = decide (i ≠ 0) := by decide
  apply BitVec.eq_of_getLsbD_eq
  intro i hi
  rw [BitVec.getLsbD_or, BitVec.getLsbD_and, hmask i hi, BitVec.getLsbD_setWidth, BitVec.getLsbD_ofBool]
  cases i with
  | zero => simp
  | succ i => simp

/-- A flag after a write to `SR`: set if it was what is written. -/
theorem getLsbD_srWrite (s : Stm32Timer) (v : BitVec 16) (i : ℕ) :
    (s.srWrite (v.setWidth 64)).sr.getLsbD i =
      ((0x1eFF : BitVec 32).getLsbD i && (s.sr.getLsbD i == v.getLsbD i)) := by
  have hall : ∀ i < 16, (0xFFFF : BitVec 64).getLsbD i = true := by decide
  show (_ &&& ~~~ 0x1 ||| (BitVec.ofBool (BitVec.getLsbD _ 0)).setWidth 32).getLsbD i = _
  rw [store_UIF]
  by_cases hi : i < 16
  · rw [BitVec.getLsbD_and, BitVec.getLsbD_xor, BitVec.getLsbD_setWidth, BitVec.getLsbD_xor,
      BitVec.getLsbD_setWidth, hall i hi, decide_eq_true (by omega), decide_eq_true (by omega)]
    cases s.sr.getLsbD i <;> cases v.getLsbD i <;> cases (0x1eFF : BitVec 32).getLsbD i <;> rfl
  · have hmask : (0x1eFF : BitVec 32).getLsbD i = false :=
      Nat.testBit_lt_two_pow (Nat.lt_of_lt_of_le (by decide)
        (Nat.pow_le_pow_right (by decide) (Nat.le_of_not_lt hi) : 2 ^ 16 ≤ 2 ^ i))
    rw [BitVec.getLsbD_and, hmask, Bool.and_false, Bool.false_and]

/-- The flags after a write to `SR` are those that were set and written `1`, if each is one of the
    two. -/
theorem srWrite_sr_iff (s : Stm32Timer) (v : BitVec 16) :
    (s.srWrite (v.setWidth 64)).sr = s.sr &&& v.setWidth 32 &&& 0x1eFF ↔
      ∀ i, (0x1eFF : BitVec 32).getLsbD i = true → s.sr.getLsbD i = true ∨ v.getLsbD i = true := by
  have hbit : ∀ i < 32, (s.sr &&& v.setWidth 32 &&& 0x1eFF).getLsbD i =
      (s.sr.getLsbD i && v.getLsbD i && (0x1eFF : BitVec 32).getLsbD i) := by
    intro i hi
    rw [BitVec.getLsbD_and, BitVec.getLsbD_and, BitVec.getLsbD_setWidth, decide_eq_true hi,
      Bool.true_and]
  constructor
  · intro h i hi
    have hlt : i < 32 := BitVec.lt_of_getLsbD hi
    have heq := congrArg (BitVec.getLsbD · i) h
    rw [getLsbD_srWrite, hbit i hlt, hi] at heq
    cases hs : s.sr.getLsbD i <;> cases hv : v.getLsbD i <;> simp_all
  · intro h
    apply BitVec.eq_of_getLsbD_eq
    intro i hi
    rw [getLsbD_srWrite, hbit i hi]
    cases hm : (0x1eFF : BitVec 32).getLsbD i with
    | false => simp
    | true =>
      rcases h i hm with h | h <;> rw [h] <;> simp

/-- **A write to `SR` only clears flags** exactly if each flag is set already or `1` in the value
    written. -/
theorem sr_write_iff {periph : Periph} {l : List (TimerEnv × Op)} {env : TimerEnv}
    {s t : Stm32Timer} (hr : Machine.run step (init periph) l = .ok s) (v : BitVec 16)
    (h : step s (env, .write 0x10 (v.setWidth 64)) = .ok t) :
    (t.read env 0x10 = .ok ((s.sr &&& v.setWidth 32 &&& 0x1eFF).setWidth 64) ∧
      (t.irq = true → s.irq = true)) ↔
    ∀ i, (0x1eFF : BitVec 32).getLsbD i = true → s.sr.getLsbD i = true ∨ v.getLsbD i = true := by
  have hUIF : s.irq = s.UIF := Machine.run_inv (I := fun s : Stm32Timer => s.irq = s.UIF)
    (fun _ _ _ hs => step_irq_eq_UIF hs) (congrArg Lines.UIF (init_lines periph)).symm hr
  obtain rfl : s.srWrite (v.setWidth 64) = t := Except.ok.inj h
  rw [← srWrite_sr_iff]
  constructor
  · rintro ⟨hread, -⟩
    have hsr := congrArg (BitVec.setWidth 32) (Except.ok.inj hread)
    rwa [Word.setWidth_setWidth_32, Word.setWidth_setWidth_32] at hsr
  · intro hsr
    refine ⟨congrArg (fun x : BitVec 32 => Except.ok (x.setWidth 64)) hsr, fun hirq => ?_⟩
    -- the line has the level of the flag, before and after
    have hflag : (s.srWrite (v.setWidth 64)).sr.getLsbD 0 = true :=
      (step_irq_eq_UIF hUIF h).symm.trans hirq
    rw [hsr, BitVec.getLsbD_and, BitVec.getLsbD_and] at hflag
    simp only [Bool.and_eq_true] at hflag
    exact hUIF.trans hflag.1.1

/-- `TIF` is set by `EGR` and then cleared, alone. -/
theorem sr_write_trigger : ∃ rcc s t, Stm32Rcc.Reachable zeroHost 8000000 32768 rcc ∧
    Machine.run step (init .TIM2) [(⟨rcc, 0⟩, .write 0x14 0x40)] = .ok s ∧ s.sr = 0x40 ∧
    step s (⟨rcc, 0⟩, .write 0x10 0xFFBF) = .ok t ∧ t.read ⟨rcc, 0⟩ 0x10 = .ok 0 ∧
    (t.irq = true → s.irq = true) := by
  obtain ⟨rcc, hrcc⟩ := Stm32Rcc.exists_reachable zeroHost 8000000 32768
  have hset : Machine.run step (init .TIM2) [(⟨rcc, 0⟩, .write 0x14 0x40)] =
      .ok { init .TIM2 with sr := 0x40 } := rfl
  have hclear : step { init .TIM2 with sr := 0x40 }
      (⟨rcc, 0⟩, .write 0x10 ((0xFFBF : BitVec 16).setWidth 64)) = .ok _ := rfl
  have hlow : ∀ i < 32, (0x1eFF : BitVec 32).getLsbD i = true →
      (0x40 : BitVec 32).getLsbD i = true ∨ (0xFFBF : BitVec 16).getLsbD i = true := by decide
  have hflags := (sr_write_iff hset 0xFFBF hclear).2 fun i hi => hlow i (BitVec.lt_of_getLsbD hi) hi
  exact ⟨rcc, _, _, hrcc, rfl, rfl, rfl, hflags⟩

/-- The flag of an update that has not occurred is cleared: it becomes set, and raises the line. -/
theorem sr_write_sets_UIF : ∃ rcc t, Stm32Rcc.Reachable zeroHost 8000000 32768 rcc ∧
    step (init .TIM2) (⟨rcc, 0⟩, .write 0x10 0xFFFE) = .ok t ∧
    t.read ⟨rcc, 0⟩ 0x10 = .ok 1 ∧ t.irq = true ∧ (init .TIM2).irq = false := by
  obtain ⟨rcc, hrcc⟩ := Stm32Rcc.exists_reachable zeroHost 8000000 32768
  exact ⟨rcc, _, hrcc, rfl, rfl, rfl, rfl⟩

end Stm32Timer

end Bluepill
