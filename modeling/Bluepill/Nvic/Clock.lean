/-
  SysTick measures the time it is enabled.

  While SysTick is enabled, `tick` is the time of its next expiry; while it is disabled, `tick` is
  what was left until then.  An expiry reloads from the time it was due, not from the time it was
  served, and enabling goes on where disabling stopped.

  `systick_exact`: over any run that leaves the reload value and the clock, in which SysTick is
  disabled and enabled at will and its expiries are served early or late, the next expiry is due
  when the time it was enabled is a whole number of periods: one more than it had expiries.  A
  write to the current value starts a new count, and so does disabling when an expiry is overdue:
  that expiry is lost, and enabling starts with a full period.
-/
import Mathlib.Data.BitVec
import Mathlib.Tactic.Ring
import Bluepill.Nvic.Acts

namespace Bluepill

open Machine

namespace SystickTimer

variable {s : SystickTimer} {value : BitVec 32}

/-- What an operation of the NVIC does to SysTick. -/
def after (s : SystickTimer) (env : NvicEnv) : Nvic.Op → SystickTimer
  | .read offset size =>
    if offset = 0x10 ∧ size = .word then { s with control := s.control &&& ~~~ SYSTICK_COUNTFLAG } else s
  | .write offset value size =>
    if size ≠ .word then s
    else if offset = 0x10 then s.writeControl env (value.setWidth 32)
    else if offset = 0x14 then { s with reload := value.setWidth 32 }
    else if offset = 0x18 then s.writeCurrent env
    else s
  | .tick => if s.timer.isSome then s.tickTimer env else s
  | .reset => .reset
  | _ => s

theorem has_enable : s.has SYSTICK_ENABLE = s.control.getLsbD 0 := Word.bitSet_eq s.control (b := 0) (by decide)

theorem has_clksource : s.has SYSTICK_CLKSOURCE = s.control.getLsbD 2 := Word.bitSet_eq s.control (b := 2) (by decide)

/-- The control register after a write. -/
def controlAfter (s : SystickTimer) (value : BitVec 32) : BitVec 32 := s.control &&& 0xfffffff8 ||| value &&& 7

theorem controlAfter_bit {i : ℕ} (hi : i < 3) : (s.controlAfter value).getLsbD i = value.getLsbD i := by
  unfold controlAfter
  simp only [BitVec.getLsbD_or, BitVec.getLsbD_and]
  interval_cases i <;> simp

/-- **What a write to the control register does**, unless it only changes the clock. -/
theorem writeControl_cases (env : NvicEnv)
    (hsrc : value.getLsbD 0 = s.has SYSTICK_ENABLE → value.getLsbD 2 = s.has SYSTICK_CLKSOURCE) :
    (value.getLsbD 0 = s.has SYSTICK_ENABLE ∧ s.writeControl env value = { s with control := s.controlAfter value }) ∨
    (value.getLsbD 0 = true ∧ s.has SYSTICK_ENABLE = false ∧ s.writeControl env value =
      if s.tick != 0 then mod { s with control := s.controlAfter value, tick := s.tick + env.now }
      else reloadTimer env { s with control := s.controlAfter value } true) ∨
    (value.getLsbD 0 = false ∧ s.has SYSTICK_ENABLE = true ∧ s.writeControl env value =
      { s with
        control := s.controlAfter value
        timer := none
        tick := if (s.tick - env.now).slt 0 then 0 else s.tick - env.now }) := by
  have hflip : ∀ i < 32, Word.bitSet (s.control ^^^ value) i = (s.control.getLsbD i ^^ value.getLsbD i) := by
    intro i hi
    rw [Word.bitSet_eq _ hi, BitVec.getLsbD_xor]
  have henable : ((s.control ^^^ value) &&& SYSTICK_ENABLE != 0) = (s.control.getLsbD 0 ^^ value.getLsbD 0) :=
    hflip 0 (by decide)
  have hclk : ((s.control ^^^ value) &&& SYSTICK_CLKSOURCE != 0) = (s.control.getLsbD 2 ^^ value.getLsbD 2) :=
    hflip 2 (by decide)
  have hvalue : (value &&& SYSTICK_ENABLE != 0) = value.getLsbD 0 := Word.bitSet_eq value (b := 0) (by decide)
  rw [has_enable, has_clksource] at hsrc
  unfold writeControl
  simp only [henable, hclk, hvalue, has_enable]
  cases he : s.control.getLsbD 0 <;> cases hv : value.getLsbD 0 <;> rw [he, hv] at hsrc
  · simp only [hsrc rfl, Bool.xor_self]
    exact .inl ⟨trivial, rfl⟩
  · exact .inr (.inl ⟨rfl, rfl, rfl⟩)
  · exact .inr (.inr ⟨rfl, rfl, rfl⟩)
  · simp only [hsrc rfl, Bool.xor_self]
    exact .inl ⟨trivial, rfl⟩

end SystickTimer

namespace Nvic

variable {s t : Nvic}

theorem read_systick {env : NvicEnv} {offset : ℕ} {size : AccessSize} {r : BitVec 32 × Nvic}
    (h : s.read env offset size = .ok r) : r.2.systick = s.systick.after env (.read offset size) := by
  have hsame : ∀ v, (offset ≠ 0x10 ∨ size ≠ .word) → Except.ok (v, s) = (.ok r : Except Fault _) →
      r.2.systick = s.systick.after env (.read offset size) := by
    rintro v hne hr
    cases hr
    exact (if_neg (by tauto)).symm
  unfold read at h
  split at h
  · exact hsame _ (.inl (by omega)) h
  unfold sysregRead at h
  split at h
  · exact hsame _ (.inl (by omega)) h
  split at h
  · exact hsame _ (.inl (by omega)) h
  split at h
  · rename_i hsize
    subst hsize
    unfold readl at h
    split at h
    case h_2 =>
      cases h
      rfl
    case h_4 =>
      obtain ⟨v, -, h⟩ := bind_eq_ok.1 h
      exact hsame _ (.inl (by decide)) h
    case h_20 hne _ _ _ _ _ _ _ _ _ _ _ _ _ _ _ _ _ =>
      exact hsame _ (.inl hne) h
    all_goals exact hsame _ (.inl (by decide)) h
  · exact hsame _ (.inr ‹_›) h

theorem write_systick {env : NvicEnv} {offset : ℕ} {value : BitVec 64} {size : AccessSize} :
    (s.write env offset value size).systick = s.systick.after env (.write offset value size) := by
  have hsame : (size ≠ .word ∨ offset ≠ 0x10 ∧ offset ≠ 0x14 ∧ offset ≠ 0x18) →
      s.systick = s.systick.after env (.write offset value size) := by
    intro hne
    simp only [SystickTimer.after]
    split_ifs <;> first | rfl | tauto
  unfold write
  split
  · exact hsame (.inr (by omega))
  unfold sysregWrite
  split
  · exact hsame (.inr (by omega))
  split
  · rename_i hsize
    subst hsize
    unfold writel
    split
    case h_1 | h_2 | h_3 => rfl
    case h_4 =>
      have hpending : ∀ (s : Nvic) value irq set clear, (s.writePending value irq set clear).systick = s.systick := by
        intro s value irq set clear
        unfold writePending
        split_ifs <;> rfl
      dsimp only
      rw [hpending, hpending]
      split <;> rfl
    case h_5 | h_6 => rfl
    case h_7 => split <;> rfl
    case h_8 h₁ h₂ h₃ _ _ _ _ => exact hsame (.inr ⟨h₁, h₂, h₃⟩)
  · exact hsame (.inl ‹_›)

theorem step_systick {o : NvicEnv × Op} (h : step s o = .ok t) : t.systick = s.systick.after o.1 o.2 := by
  obtain ⟨env, o⟩ := o
  cases o with
  | setIrq line level | setPending irq | reset =>
    cases h
    rfl
  | acknowledge =>
    have h' : s.acknowledgeIrq.map Prod.snd = .ok t := h
    simp only [acknowledgeIrq] at h'
    split_ifs at h'
    · cases h'
    · cases h'
      rfl
  | complete irq =>
    obtain ⟨g, -, h⟩ := bind_eq_ok.1 h
    cases h
    rfl
  | read offset size =>
    have h' : (s.read env offset size).map Prod.snd = .ok t := h
    cases hr : s.read env offset size with
    | error e => rw [hr] at h'; cases h'
    | ok r =>
      rw [hr] at h'
      cases h'
      exact read_systick hr
  | write offset value size =>
    cases h
    exact write_systick
  | tick =>
    cases h
    simp only [SystickTimer.after]
    split <;> rfl

/-- How long SysTick was enabled until the time `last`, and how often it expired. -/
structure Elapsed where
  active : BitVec 64
  last : BitVec 64
  expiries : ℕ
  deriving DecidableEq

/-- The count starts anew: the current value is written while SysTick is enabled, or SysTick is disabled when an
    expiry is overdue. -/
def restarts (s : SystickTimer) : NvicEnv × Op → Bool
  | (env, .write offset value size) =>
    s.has SYSTICK_ENABLE && size = .word &&
      (offset = 0x18 || offset = 0x10 && !value.getLsbD 0 && !(0#64).slt (s.tick - env.now))
  | _ => false

/-- One operation later, when the count goes on. -/
def Elapsed.pass (c : Elapsed) (s : SystickTimer) (o : NvicEnv × Op) : Elapsed where
  active := if s.has SYSTICK_ENABLE then c.active + (o.1.now - c.last) else c.active
  last := o.1.now
  expiries := c.expiries + expired s o.2
where
  expired (s : SystickTimer) : Op → ℕ
    | .tick => if s.timer.isSome then 1 else 0
    | _ => 0

/-- One operation later. -/
def Elapsed.next (c : Elapsed) (s : SystickTimer) (o : NvicEnv × Op) : Elapsed :=
  if restarts s o then ⟨0, o.1.now, 0⟩ else c.pass s o

/-- The NVIC, with the time SysTick was enabled. -/
def stepElapsed (p : Nvic × Elapsed) (o : NvicEnv × Op) : Except Fault (Nvic × Elapsed) := do
  let t ← p.1.step o
  .ok (t, p.2.next p.1.systick o)

/-- The operation leaves the reload value and the clock. -/
def Continues (s : SystickTimer) : Op → Bool
  | .write offset value size =>
    size ≠ .word || offset ≠ 0x14 && (offset ≠ 0x10 || value.getLsbD 2 = s.has SYSTICK_CLKSOURCE)
  | .reset => false
  | _ => true

/-- The period, while the scales are `scales`. -/
def period (s : SystickTimer) (scales : Systick) : BitVec 64 :=
  (s.reload + 1).setWidth 64 * s.scale ⟨0, scales⟩

/-- **The next expiry is due at the end of the period** that follows those that expired.  SysTick may also be
    disabled with a full period to go. -/
structure Counts (scales : Systick) (P : BitVec 64) (s : SystickTimer) (c : Elapsed) : Prop where
  reload : s.reload ≠ 0
  period : period s scales = P
  tick : s.has SYSTICK_ENABLE = true ∨ s.tick ≠ 0 →
    s.tick = (if s.has SYSTICK_ENABLE then c.last else 0) + (c.expiries + 1) * P - c.active
  full : s.has SYSTICK_ENABLE = false → s.tick = 0 → c.active = 0 ∧ c.expiries = 0
  timer : s.timer = if s.has SYSTICK_ENABLE then some (timerMod s.tick) else none

variable {scales : Systick} {P : BitVec 64} {s s' : SystickTimer} {c : Elapsed} {o : NvicEnv × Op}

theorem period_eq (hsrc : s'.has SYSTICK_CLKSOURCE = s.has SYSTICK_CLKSOURCE) (hreload : s'.reload = s.reload)
    (hscales : o.1.scales = scales) : (s'.reload + 1).setWidth 64 * s'.scale o.1 = period s scales := by
  rw [period, SystickTimer.scale, SystickTimer.scale, hsrc, hreload, hscales]

/-- Time passes. -/
theorem Counts.pass (h : Counts scales P s c) (ho : Elapsed.pass.expired s o.2 = 0) : Counts scales P s (c.pass s o) := by
  refine ⟨h.reload, h.period, ?_, ?_, h.timer⟩
  · rw [Elapsed.pass, ho, Nat.add_zero]
    intro hleft
    rw [h.tick hleft]
    dsimp only
    split
    · abel
    · rfl
  · rw [Elapsed.pass, ho, Nat.add_zero]
    intro hoff hzero
    rw [hoff]
    exact h.full hoff hzero

theorem Counts.same (h : Counts scales P s c) (henable : s'.has SYSTICK_ENABLE = s.has SYSTICK_ENABLE)
    (hsrc : s'.has SYSTICK_CLKSOURCE = s.has SYSTICK_CLKSOURCE) (hreload : s'.reload = s.reload)
    (htick : s'.tick = s.tick) (htimer : s'.timer = s.timer) : Counts scales P s' c := by
  refine ⟨?_, (period_eq (o := (⟨0, scales⟩, .reset)) hsrc hreload rfl).trans h.period, ?_, ?_, ?_⟩
  · rw [hreload]
    exact h.reload
  · rw [henable, htick]
    exact h.tick
  · rw [henable, htick]
    exact h.full
  · rw [htimer, h.timer, henable, htick]

/-- `COUNTFLAG` does not matter. -/
theorem Counts.clearFlag (h : Counts scales P s c) :
    Counts scales P { s with control := s.control &&& ~~~ SYSTICK_COUNTFLAG } c := by
  refine h.same ?_ ?_ rfl rfl rfl
  · simp [SystickTimer.has_enable, SYSTICK_COUNTFLAG]
  · simp [SystickTimer.has_clksource, SYSTICK_COUNTFLAG]

/-- A state with the timer started for `tick`. -/
theorem counts_mod (hreload : s.reload ≠ 0) (hperiod : period s scales = P) (hon : s.has SYSTICK_ENABLE = true)
    (htick : s.tick = c.last + (c.expiries + 1) * P - c.active) : Counts scales P s.mod c := by
  have hon' : s.mod.has SYSTICK_ENABLE = true := hon
  refine ⟨hreload, hperiod, fun _ => ?_, fun hoff => ?_, ?_⟩
  · rw [hon']
    exact htick
  · rw [hon'] at hoff
    cases hoff
  · rw [hon']
    rfl

/-- The timer is started for a full period. -/
theorem counts_reload {env : NvicEnv} {P : BitVec 64} (hreload : s.reload ≠ 0)
    (hperiod : period s env.scales = P) (hon : s.has SYSTICK_ENABLE = true) :
    Counts env.scales P (s.reloadTimer env true) ⟨0, env.now, 0⟩ := by
  rw [SystickTimer.reloadTimer, hon]
  refine counts_mod hreload hperiod hon ?_
  subst hperiod
  show env.now + period s env.scales = env.now + ((0 : ℕ) + 1) * period s env.scales - 0
  rw [Nat.cast_zero]
  ring

/-- An expiry: the next one is due a period after this one was. -/
theorem Counts.tickTimer (h : Counts scales P s c) (hscales : o.1.scales = scales)
    (hon : s.has SYSTICK_ENABLE = true) (ho : Elapsed.pass.expired s o.2 = 1) :
    Counts scales P (s.tickTimer o.1) (c.pass s o) := by
  obtain ⟨t, ht⟩ : ∃ t, t = { s with control := s.control ||| SYSTICK_COUNTFLAG, timer := none } := ⟨_, rfl⟩
  have hcontrol : t.has SYSTICK_ENABLE = true ∧ t.has SYSTICK_CLKSOURCE = s.has SYSTICK_CLKSOURCE := by
    rw [SystickTimer.has_enable] at hon
    rw [SystickTimer.has_enable, SystickTimer.has_clksource, SystickTimer.has_clksource, ht]
    simp [hon, SYSTICK_COUNTFLAG]
  have hreload : t.reload = s.reload := by rw [ht]
  have hperiod : (t.reload + 1).setWidth 64 * t.scale o.1 = P :=
    (period_eq hcontrol.2 hreload hscales).trans h.period
  have hne : t.reload ≠ 0 := hreload ▸ h.reload
  have heq : s.tickTimer o.1 = SystickTimer.mod { t with tick := s.tick + P } := by
    rw [SystickTimer.tickTimer, ← ht, if_neg hne, SystickTimer.reloadTimer, hcontrol.1]
    simp only [Bool.not_true, Bool.false_eq_true, if_false]
    rw [hperiod, ht]
  rw [heq]
  refine counts_mod hne ?_ hcontrol.1 ?_
  · exact (period_eq (o := (⟨0, scales⟩, o.2)) hcontrol.2 hreload rfl).trans h.period
  · rw [h.tick (.inl hon), if_pos hon, Elapsed.pass, ho, if_pos hon]
    dsimp only
    rw [Nat.cast_succ]
    ring

section control

variable {value : BitVec 32} {t : SystickTimer}

theorem has_enable_after (ht : t.control = s.controlAfter value) : t.has SYSTICK_ENABLE = value.getLsbD 0 := by
  rw [SystickTimer.has_enable, ht, SystickTimer.controlAfter_bit (by decide)]

theorem has_clksource_after (ht : t.control = s.controlAfter value)
    (hsrc : value.getLsbD 2 = s.has SYSTICK_CLKSOURCE) : t.has SYSTICK_CLKSOURCE = s.has SYSTICK_CLKSOURCE := by
  rw [SystickTimer.has_clksource, ht, SystickTimer.controlAfter_bit (by decide), hsrc]

theorem Counts.period_after (h : Counts scales P s c) (hsrc : value.getLsbD 2 = s.has SYSTICK_CLKSOURCE)
    (ht : t.control = s.controlAfter value) (hreload : t.reload = s.reload) : Nvic.period t scales = P :=
  (period_eq (o := (⟨0, scales⟩, .reset)) (has_clksource_after ht hsrc) hreload rfl).trans h.period

/-- SysTick is enabled: what is left of the period counts from now on, or a full one. -/
theorem Counts.enable (h : Counts scales P s c) (hscales : o.1.scales = scales)
    (hsrc : value.getLsbD 2 = s.has SYSTICK_CLKSOURCE) (ho : Elapsed.pass.expired s o.2 = 0)
    (hon : value.getLsbD 0 = true) (hoff : s.has SYSTICK_ENABLE = false) :
    Counts scales P (if s.tick != 0 then .mod { s with control := s.controlAfter value, tick := s.tick + o.1.now }
      else .reloadTimer o.1 { s with control := s.controlAfter value } true) (c.pass s o) := by
  by_cases hleft : s.tick = 0
  · obtain ⟨hactive, hexpiries⟩ := h.full hoff hleft
    have hpass : c.pass s o = ⟨0, o.1.now, 0⟩ := by
      rw [Elapsed.pass, ho, hoff, hactive, hexpiries]
      rfl
    rw [if_neg (by simp [hleft]), hpass, ← hscales]
    refine counts_reload h.reload ?_ ((has_enable_after rfl).trans hon)
    rw [hscales]
    exact h.period_after hsrc rfl rfl
  · rw [if_pos (by simpa using hleft)]
    refine counts_mod h.reload (h.period_after hsrc rfl rfl) ((has_enable_after rfl).trans hon) ?_
    simp only [h.tick (.inr hleft), Elapsed.pass, hoff, ho, Nat.add_zero, Bool.false_eq_true, if_false]
    abel

/-- SysTick is disabled before its expiry is due: what is left is kept. -/
theorem Counts.disable (h : Counts scales P s c) (hsrc : value.getLsbD 2 = s.has SYSTICK_CLKSOURCE)
    (ho : Elapsed.pass.expired s o.2 = 0) (hoff : value.getLsbD 0 = false) (hon : s.has SYSTICK_ENABLE = true)
    (hdue : s.tick - o.1.now ≠ 0) :
    Counts scales P { s with control := s.controlAfter value, timer := none, tick := s.tick - o.1.now }
      (c.pass s o) := by
  have hoff' : SystickTimer.has
      { s with control := s.controlAfter value, timer := none, tick := s.tick - o.1.now } SYSTICK_ENABLE = false :=
    (has_enable_after rfl).trans hoff
  refine ⟨h.reload, h.period_after hsrc rfl rfl, fun _ => ?_, fun _ hzero => absurd hzero hdue, ?_⟩
  · rw [hoff']
    simp only [h.tick (.inl hon), Elapsed.pass, hon, ho, Nat.add_zero, Bool.false_eq_true, if_false, if_true]
    abel
  · rw [hoff']
    rfl

/-- SysTick is disabled when its expiry is overdue: nothing is left. -/
theorem Counts.disable_overdue (h : Counts scales P s c) (hsrc : value.getLsbD 2 = s.has SYSTICK_CLKSOURCE)
    (hoff : value.getLsbD 0 = false) (now : BitVec 64) :
    Counts scales P { s with control := s.controlAfter value, timer := none, tick := 0 } ⟨0, now, 0⟩ := by
  have hoff' : SystickTimer.has { s with control := s.controlAfter value, timer := none, tick := 0 } SYSTICK_ENABLE =
      false := (has_enable_after rfl).trans hoff
  refine ⟨h.reload, h.period_after hsrc rfl rfl, fun hleft => ?_, fun _ _ => ⟨rfl, rfl⟩, ?_⟩
  · rw [hoff'] at hleft
    rcases hleft with hleft | hleft
    · cases hleft
    · exact absurd rfl hleft
  · rw [hoff']
    rfl

/-- What a write to the control register keeps of the time that is left. -/
theorem tick_left (left : BitVec 64) : (if left.slt 0 then 0 else left) = if (0#64).slt left then left else 0 := by
  simp only [BitVec.slt, decide_eq_true_iff]
  split_ifs with hneg hpos hpos
  · exact absurd (hneg.trans hpos) (lt_irrefl _)
  · rfl
  · rfl
  · exact BitVec.eq_of_toInt_eq (le_antisymm (not_lt.1 hpos) (not_lt.1 hneg))

/-- A write to the control register that leaves the clock. -/
theorem Counts.writeControl (h : Counts scales P s c) (hscales : o.1.scales = scales)
    (hsrc : value.getLsbD 2 = s.has SYSTICK_CLKSOURCE) (ho : Elapsed.pass.expired s o.2 = 0) :
    Counts scales P (s.writeControl o.1 value)
      (if s.has SYSTICK_ENABLE && !value.getLsbD 0 && !(0#64).slt (s.tick - o.1.now) then ⟨0, o.1.now, 0⟩
        else c.pass s o) := by
  rcases SystickTimer.writeControl_cases o.1 fun _ => hsrc with ⟨hsame, heq⟩ | ⟨hon, hoff, heq⟩ | ⟨hoff, hon, heq⟩
  · rw [heq, hsame, Bool.and_not_self, Bool.false_and, if_neg Bool.false_ne_true]
    exact (h.pass ho).same ((has_enable_after rfl).trans hsame) (has_clksource_after rfl hsrc) rfl rfl rfl
  · rw [heq, hoff, Bool.false_and, Bool.false_and, if_neg Bool.false_ne_true]
    exact h.enable hscales hsrc ho hon hoff
  · rw [heq, hon, hoff, Bool.not_false, Bool.true_and, Bool.true_and, tick_left]
    cases hdue : (0#64).slt (s.tick - o.1.now) with
    | true =>
      have hne : s.tick - o.1.now ≠ 0 := by
        intro h0
        rw [h0] at hdue
        cases hdue
      exact h.disable hsrc ho hoff hon hne
    | false => exact h.disable_overdue hsrc hoff o.1.now

end control

/-- A write to the current value: a full period starts, if SysTick is enabled. -/
theorem Counts.writeCurrent (h : Counts scales P s c) (hscales : o.1.scales = scales)
    (ho : Elapsed.pass.expired s o.2 = 0) :
    Counts scales P (s.writeCurrent o.1) (if s.has SYSTICK_ENABLE then ⟨0, o.1.now, 0⟩ else c.pass s o) := by
  refine Counts.clearFlag ?_
  split
  case isTrue hon =>
    rw [← hscales]
    exact counts_reload h.reload (by rw [hscales]; exact h.period) hon
  case isFalse hoff =>
    rw [SystickTimer.reloadTimer, if_pos (by simpa using hoff)]
    exact h.pass ho

/-- **A step.** -/
theorem Counts.after (h : Counts scales P s c) (hscales : o.1.scales = scales)
    (ho : Continues s o.2 = true) : Counts scales P (s.after o.1 o.2) (c.next s o) := by
  obtain ⟨env, o⟩ := o
  cases o with
  | setIrq line level | setPending irq | acknowledge | complete irq => exact h.pass rfl
  | read offset size =>
    simp only [SystickTimer.after]
    split
    · exact (h.pass rfl).clearFlag
    · exact h.pass rfl
  | write offset value size =>
    have hpass : Counts scales P s (c.pass s (env, .write offset value size)) := h.pass rfl
    simp only [Continues, Bool.or_eq_true, Bool.and_eq_true, decide_eq_true_iff] at ho
    rw [Elapsed.next, restarts]
    by_cases hsize : size = .word
    · subst hsize
      by_cases hcontrol : offset = 0x10
      · subst hcontrol
        have hbit : ∀ i < 32, (value.setWidth 32).getLsbD i = value.getLsbD i := fun i hi => by simp [hi]
        have hsrc : (value.setWidth 32).getLsbD 2 = s.has SYSTICK_CLKSOURCE := by
          rw [hbit 2 (by decide)]
          simpa using ho
        have hwrite := h.writeControl (o := (env, .write 0x10 value .word)) hscales hsrc rfl
        simpa [SystickTimer.after, hbit 0 (by decide), Bool.and_assoc] using hwrite
      · have hreload : offset ≠ 0x14 := by
          rintro rfl
          simp at ho
        by_cases hcurrent : offset = 0x18
        · subst hcurrent
          simpa [SystickTimer.after] using h.writeCurrent (o := (env, .write 0x18 value .word)) hscales rfl
        · simpa [SystickTimer.after, hcontrol, hreload, hcurrent] using hpass
    · simpa [SystickTimer.after, hsize] using hpass
  | tick =>
    simp only [SystickTimer.after]
    split
    case isTrue hsome =>
      refine h.tickTimer (o := (env, .tick)) hscales ?_ (if_pos hsome)
      by_contra hoff
      rw [h.timer, if_neg hoff] at hsome
      cases hsome
    case isFalse hnone => exact h.pass (if_neg hnone)
  | reset => cases ho

/-- SysTick is enabled with a full period. -/
theorem counts_start {env : NvicEnv} {value : BitVec 32} (htick : s.tick = 0) (hreload : s.reload ≠ 0)
    (hoff : s.has SYSTICK_ENABLE = false) (hvalue : value.getLsbD 0 = true) :
    Counts env.scales (period (s.writeControl env value) env.scales) (s.writeControl env value)
      ⟨0, env.now, 0⟩ := by
  obtain ⟨t, ht⟩ : ∃ t, t = { s with control := s.controlAfter value } := ⟨_, rfl⟩
  have hon : t.has SYSTICK_ENABLE = true := by
    rw [SystickTimer.has_enable, ht, ← hvalue]
    exact SystickTimer.controlAfter_bit (by decide)
  have hne : value.getLsbD 0 ≠ s.has SYSTICK_ENABLE := by
    rw [hvalue, hoff]
    decide
  have heq : s.writeControl env value = t.reloadTimer env true := by
    rcases SystickTimer.writeControl_cases env fun hsame => absurd hsame hne with
      ⟨hsame, -⟩ | ⟨-, -, heq⟩ | ⟨hoff', -⟩
    · exact absurd hsame hne
    · rw [heq, if_neg (by simp [htick]), ht]
    · rw [hvalue] at hoff'
      cases hoff'
  have hperiod : period (t.reloadTimer env true) env.scales = period t env.scales := by
    rw [SystickTimer.reloadTimer, hon]
    rfl
  rw [heq, hperiod]
  refine counts_reload ?_ rfl hon
  rw [ht]
  exact hreload

end Nvic

open Nvic

/-- **SysTick measures the time it is enabled.**  It is enabled with a full period `P`, and then disabled
    and enabled again at will: the next expiry is due when it will have been enabled for one period more
    than it expired, counted from where the count last started. -/
theorem systick_exact {s₀ s : Nvic} {env : NvicEnv} {value : BitVec 64} {l : List (NvicEnv × Nvic.Op)}
    {c : Elapsed} {P : BitVec 64} (htick : s₀.systick.tick = 0) (hreload : s₀.systick.reload ≠ 0)
    (hoff : s₀.systick.has SYSTICK_ENABLE = false) (hvalue : value.getLsbD 0 = true)
    (hP : P = period (s₀.write env 0x10 value .word).systick env.scales)
    (h : run stepElapsed (s₀.write env 0x10 value .word, ⟨0, env.now, 0⟩) l = .ok (s, c))
    (hscales : ∀ o ∈ l, o.1.scales = env.scales)
    (hl : ∀ p o, Takes stepElapsed (s₀.write env 0x10 value .word, ⟨0, env.now, 0⟩) l p o →
      Continues p.1.systick o.2 = true) :
    (s.systick.has SYSTICK_ENABLE = true →
        s.systick.timer = some (timerMod (c.last + ((c.expiries + 1) * P - c.active)))) ∧
      (s.systick.has SYSTICK_ENABLE = false → s.systick.timer = none ∧
        (s.systick.tick = (c.expiries + 1) * P - c.active ∨
          s.systick.tick = 0 ∧ c.active = 0 ∧ c.expiries = 0)) := by
  have hinv : Counts env.scales P s.systick c := by
    refine history_inv (P := fun _ (p : Nvic × Elapsed) => Counts env.scales P p.1.systick p.2)
      (C := fun p o => o.1.scales = env.scales ∧ Continues p.1.systick o.2 = true) ?_ ?_ ?_ h
    · rintro - ⟨s, c⟩ o u hs ⟨hscales, ho⟩ hu
      obtain ⟨t, ht, hu⟩ := bind_eq_ok.1 hu
      cases hu
      have hafter := hs.after hscales ho
      rw [← step_systick ht] at hafter
      exact hafter
    · subst hP
      exact counts_start htick hreload hoff (by simpa using hvalue)
    · exact fun p o hpo => ⟨hscales o hpo.mem, hl p o hpo⟩
  refine ⟨fun hon => ?_, fun hoff => ?_⟩
  · rw [hinv.timer, if_pos hon, hinv.tick (.inl hon), if_pos hon, add_sub_assoc]
  · have hoff' : ¬ s.systick.has SYSTICK_ENABLE = true := by simp [hoff]
    refine ⟨hinv.timer.trans (if_neg hoff'), ?_⟩
    by_cases hzero : s.systick.tick = 0
    · exact .inr ⟨hzero, hinv.full hoff hzero⟩
    · rw [hinv.tick (.inr hzero), if_neg hoff']
      exact .inl (by abel)

/-- SysTick is disabled for a while and expires late, and then is disabled with an expiry overdue. -/
def disabledAndLate : List (NvicEnv × Nvic.Op) :=
  [(⟨500000, ⟨13, 111⟩⟩, .write 0x10 4 .word), (⟨900000, ⟨13, 111⟩⟩, .write 0x10 5 .word),
    (⟨2000000, ⟨13, 111⟩⟩, .tick), (⟨2300000, ⟨13, 111⟩⟩, .write 0x10 4 .word),
    (⟨2400000, ⟨13, 111⟩⟩, .write 0x10 5 .word), (⟨3400000, ⟨13, 111⟩⟩, .tick)]

theorem systick_exact_disabledAndLate : ∃ s c,
    run stepElapsed (Nvic.write ⟨1000, ⟨13, 111⟩⟩ (Nvic.start.write ⟨0, ⟨13, 111⟩⟩ 0x14 71999 .word) 0x10 5 .word,
      ⟨0, 1000, 0⟩) disabledAndLate = .ok (s, c) ∧ s.systick.timer = some 4272000 := by
  have hmeets : Meets stepElapsed (fun p o => Continues p.1.systick o.2 = true)
      (Nvic.write ⟨1000, ⟨13, 111⟩⟩ (Nvic.start.write ⟨0, ⟨13, 111⟩⟩ 0x14 71999 .word) 0x10 5 .word,
        ⟨0, 1000, 0⟩) disabledAndLate := by
    decide +kernel
  have hrun : ∃ p, run stepElapsed
      (Nvic.write ⟨1000, ⟨13, 111⟩⟩ (Nvic.start.write ⟨0, ⟨13, 111⟩⟩ 0x14 71999 .word) 0x10 5 .word,
        ⟨0, 1000, 0⟩) disabledAndLate = .ok p ∧ p.1.systick.has SYSTICK_ENABLE = true ∧
      p.2 = ⟨1000000, 3400000, 1⟩ := by
    rw [← post_ok]
    decide +kernel
  obtain ⟨⟨s, c⟩, hs, hon, rfl⟩ := hrun
  refine ⟨s, _, hs, ?_⟩
  have hscales : ∀ o ∈ disabledAndLate, o.1.scales = ⟨13, 111⟩ := by
    simp [disabledAndLate]
  have hexact := systick_exact (P := 936000) rfl (by decide) rfl rfl (by decide) hs hscales hmeets.takes
  exact (hexact.1 hon).trans (by decide)

end Bluepill
