/-
  The general purpose timers (`hw/timer/stm32_timer.c`).

  The counter is a `Ptimer`, which always counts down; `countMode` says how its
  value is to be read.  An expiry of the `Ptimer` schedules `tick`, which runs
  later: these are two operations (`Op.expire` and `Op.tick`).  The fields that
  no function reads (`running`) are left out.
-/
import Bluepill.Ptimer
import Bluepill.Rcc

namespace Bluepill

/-- The devices a timer looks at, and the time. -/
structure TimerEnv where
  rcc : Stm32Rcc
  now : BitVec 64

/-- `TIMER_UP_COUNT` and `TIMER_DOWN_COUNT`. -/
inductive CountMode where
  | up
  | down
  deriving DecidableEq

def CountMode.toggle : CountMode → CountMode
  | .up => .down
  | .down => .up

/-- `struct Stm32Timer`, with the level driven on the interrupt line. -/
structure Stm32Timer where
  periph : Periph
  timer : Ptimer
  irq : Bool
  countMode : CountMode
  itr : Bool
  cr1 : BitVec 32
  dier : BitVec 32
  sr : BitVec 32
  egr : BitVec 32
  ccmr1 : BitVec 32
  ccmr2 : BitVec 32
  ccer : BitVec 32
  psc : BitVec 32
  arr : BitVec 32
  ccr1 : BitVec 32
  ccr2 : BitVec 32
  ccr3 : BitVec 32
  ccr4 : BitVec 32

namespace Stm32Timer

variable (env : TimerEnv)

/-- `stm32_timer_init`. -/
def init (periph : Periph) : Stm32Timer where
  periph := periph
  timer := .init
  irq := false
  countMode := .up
  itr := false
  cr1 := 0
  dier := 0
  sr := 0
  egr := 0
  ccmr1 := 0
  ccmr2 := 0
  ccer := 0
  psc := 0
  arr := 0
  ccr1 := 0
  ccr2 := 0
  ccr3 := 0
  ccr4 := 0

/-- `stm32_timer_freq`. -/
def freq (s : Stm32Timer) : Except Fault Stm32Timer := do
  let periphFreq ← env.rcc.getPeriphFreq s.periph
  if s.psc + 1 = 0 then .error .divByZero
  else if 2 * periphFreq / (s.psc + 1) ≠ 0 then do
    let timer ← s.timer.setFreq env.now (2 * periphFreq / (s.psc + 1))
    .ok { s with timer }
  else .ok s

/-- `stm32_timer_get_count`. -/
def getCount (s : Stm32Timer) : Except Fault (BitVec 32) := do
  let cnt ← s.timer.getCount env.now
  match s.countMode with
  | .up => .ok ((s.arr.setWidth 64 - (cnt &&& 0xfffff)).setWidth 32)
  | .down => .ok ((cnt &&& 0xffff).setWidth 32)

/-- `stm32_timer_set_count`. -/
def setCount (s : Stm32Timer) (cnt : BitVec 32) : Stm32Timer :=
  let count := match s.countMode with
    | .up => s.arr - (cnt &&& 0xfffff)
    | .down => cnt &&& 0xffff
  { s with timer := s.timer.setCount env.now (count.setWidth 64) }

/-- `stm32_timer_clk_irq_handler`. -/
def clkIrqHandler (s : Stm32Timer) (n : ℕ) (_level : Bool) : Except Fault Stm32Timer := do
  assert (n = 0)
  freq env s

/-- The direction `CR1` asks for: up in the center-aligned modes. -/
def direction (cr1 : BitVec 32) : CountMode :=
  let countMode := if cr1 &&& 0x10 ≠ 0 then CountMode.down else .up
  if cr1 &&& 0x060 ≠ 0 then .up else countMode

/-- `stm32_timer_update`. -/
def update (s : Stm32Timer) : Except Fault Stm32Timer := do
  let s ← freq env s
  let s := { s with countMode := direction s.cr1 }
  if s.cr1 &&& 0x01 ≠ 0 then .ok { s with timer := s.timer.run env.now (s.cr1 &&& 0x04 = 0) }
  else do
    let timer ← s.timer.stop env.now
    .ok { s with timer }

/-- `stm32_timer_update_UIF`. -/
def updateUIF (s : Stm32Timer) (value : Bool) : Stm32Timer :=
  { s with sr := s.sr &&& ~~~ 0x1 ||| (BitVec.ofBool value).setWidth 32, irq := value }

/-- The part of `stm32_timer_tick` before the run mode is looked at: the flag is
    set, and the counter starts again. -/
def overflow (s : Stm32Timer) : Stm32Timer :=
  let s := updateUIF { s with itr := true } true
  let s := match s.countMode with
    | .up => setCount env s 0
    | .down => setCount env s s.arr
  if s.cr1 &&& 0x0060 ≠ 0 then { s with countMode := s.countMode.toggle } else s

/-- `stm32_timer_tick`. -/
def tick (s : Stm32Timer) : Except Fault Stm32Timer :=
  let s := overflow env s
  if s.cr1 &&& 0x04 ≠ 0 then .ok { s with cr1 := s.cr1 &&& 0xFFFE } else update env s

/-! ## Registers -/

/-- `stm32_timer_read`. -/
def read (s : Stm32Timer) (offset : ℕ) : Except Fault (BitVec 64) :=
  match offset with
  | 0x00 => .ok (s.cr1.setWidth 64)
  | 0x0c => .ok (s.dier.setWidth 64)
  | 0x10 => .ok (s.sr.setWidth 64)
  | 0x18 => .ok (s.ccmr1.setWidth 64)
  | 0x1c => .ok (s.ccmr2.setWidth 64)
  | 0x20 => .ok (s.ccer.setWidth 64)
  | 0x24 => do
    let cnt ← getCount env s
    .ok (cnt.setWidth 64)
  | 0x28 => .ok (s.psc.setWidth 64)
  | 0x2c => .ok (s.arr.setWidth 64)
  | 0x34 => .ok (s.ccr1.setWidth 64)
  | 0x38 => .ok (s.ccr2.setWidth 64)
  | 0x3c => .ok (s.ccr3.setWidth 64)
  | 0x40 => .ok (s.ccr4.setWidth 64)
  | _ => .ok 0  -- `EGR`, and registers that are not supported

/-- The write to `SR`: a bit becomes the negation of `bit ^ value`. -/
def srWrite (s : Stm32Timer) (value : BitVec 64) : Stm32Timer :=
  let sr := (s.sr ^^^ (value ^^^ 0xFFFF).setWidth 32) &&& 0x1eFF
  updateUIF { s with sr } (sr.getLsbD 0)

/-- The write to `EGR`: `UG` reloads the counter. -/
def egrWrite (s : Stm32Timer) (value : BitVec 64) : Stm32Timer :=
  let s := { s with
    egr := (value &&& 0x1E).setWidth 32
    sr := if value &&& 0x40 ≠ 0 then s.sr ||| 0x40 else s.sr }
  if value &&& 0x1 ≠ 0 then
    { s with timer := s.timer.setLimit env.now (s.arr.setWidth 64) true }
  else s

/-- `stm32_timer_write`. -/
def write (s : Stm32Timer) (offset : ℕ) (value : BitVec 64) : Except Fault Stm32Timer :=
  match offset with
  | 0x00 => update env { s with cr1 := (value &&& 0x3FF).setWidth 32 }
  | 0x0c => .ok { s with dier := (value &&& 0x5F5F).setWidth 32 }
  | 0x10 => .ok (s.srWrite value)
  | 0x14 => .ok (egrWrite env s value)
  | 0x18 => .ok { s with ccmr1 := (value &&& 0xffff).setWidth 32 }
  | 0x1c => .ok { s with ccmr2 := (value &&& 0xffff).setWidth 32 }
  | 0x20 => .ok { s with ccer := (value &&& 0x3333).setWidth 32 }
  | 0x24 => .ok (setCount env s ((value &&& 0xffff).setWidth 32))
  | 0x28 => freq env { s with psc := (value &&& 0xffff).setWidth 32 }
  | 0x2c =>
    let s := { s with arr := (value &&& 0xffff).setWidth 32 }
    .ok { s with timer := s.timer.setLimit env.now (s.arr.setWidth 64) true }
  | 0x34 => .ok { s with ccr1 := (value &&& 0xffff).setWidth 32 }
  | 0x38 => .ok { s with ccr2 := (value &&& 0xffff).setWidth 32 }
  | 0x3c => .ok { s with ccr3 := (value &&& 0xffff).setWidth 32 }
  | 0x40 => .ok { s with ccr4 := (value &&& 0xffff).setWidth 32 }
  | _ => .ok s

/-! ## The device -/

/-- What can happen to a timer. -/
inductive Op where
  | read (offset : ℕ)
  | write (offset : ℕ) (value : BitVec 64)
  | clkIrq (level : Bool)
  | expire
  | tick

/-- An operation, with the other devices as they are at that moment.  The
    `QEMUTimer` expires only if it is pending, and `tick` runs only if it has been
    scheduled. -/
def step (s : Stm32Timer) (o : TimerEnv × Op) : Except Fault Stm32Timer :=
  match o.2 with
  | .read offset => do
    let _ ← s.read o.1 offset
    .ok s
  | .write offset value => s.write o.1 offset value
  | .clkIrq level => s.clkIrqHandler o.1 0 level
  | .expire =>
    .ok (if s.timer.timer.isSome then { s with timer := { s.timer with timer := none }.tick } else s)
  | .tick =>
    if s.timer.bh then tick o.1 { s with timer := { s.timer with bh := false } } else .ok s

/-! ## What the operations do

Everything but the counter: `update` changes at most the counter and its
direction, `overflow` also raises the flag. -/

variable {env} {s t : Stm32Timer}

theorem freq_eq (h : freq env s = .ok t) : ∃ timer, t = { s with timer } := by
  unfold freq at h
  obtain ⟨f, -, h⟩ := Machine.bind_eq_ok.1 h
  split at h
  · cases h
  split at h
  · obtain ⟨timer, -, h⟩ := Machine.bind_eq_ok.1 h
    cases h; exact ⟨timer, rfl⟩
  · cases h; exact ⟨s.timer, rfl⟩

theorem update_eq (h : update env s = .ok t) :
    ∃ timer, t = { s with timer, countMode := direction s.cr1 } := by
  unfold update at h
  obtain ⟨s₁, h₁, h⟩ := Machine.bind_eq_ok.1 h
  obtain ⟨timer, rfl⟩ := freq_eq h₁
  dsimp only at h
  split at h
  · cases h; exact ⟨_, rfl⟩
  · obtain ⟨timer', -, h⟩ := Machine.bind_eq_ok.1 h
    cases h; exact ⟨timer', rfl⟩

/-- The count that the counter starts again from. -/
def restartCount (s : Stm32Timer) : BitVec 32 :=
  match s.countMode with
  | .up => s.arr - (0 &&& 0xfffff)
  | .down => s.arr &&& 0xffff

theorem overflow_eq (s : Stm32Timer) : ∃ mode, overflow env s = { s with
    timer := s.timer.setCount env.now (s.restartCount.setWidth 64)
    irq := true
    itr := true
    sr := s.sr &&& ~~~ 0x1 ||| (BitVec.ofBool true).setWidth 32
    countMode := mode } := by
  unfold overflow restartCount
  dsimp only
  by_cases hcms : s.cr1 &&& 0x0060 ≠ 0
  · refine ⟨s.countMode.toggle, ?_⟩
    cases hm : s.countMode <;> exact if_pos hcms
  · refine ⟨s.countMode, ?_⟩
    cases hm : s.countMode <;> exact if_neg hcms

theorem tick_eq (h : tick env s = .ok t) : ∃ timer mode cr1, t = { s with
    timer
    irq := true
    itr := true
    sr := s.sr &&& ~~~ 0x1 ||| (BitVec.ofBool true).setWidth 32
    countMode := mode
    cr1 } := by
  obtain ⟨mode, ho⟩ : ∃ mode, overflow env s = _ := overflow_eq s
  unfold tick at h
  rw [ho] at h
  dsimp only at h
  split at h
  · cases h; exact ⟨_, mode, _, rfl⟩
  · obtain ⟨timer, rfl⟩ := update_eq h; exact ⟨timer, _, s.cr1, rfl⟩

theorem step_read {offset : ℕ} (h : step s (env, .read offset) = .ok t) : t = s := by
  obtain ⟨-, -, h⟩ := Machine.bind_eq_ok.1 h
  cases h; rfl

theorem step_clkIrq {level : Bool} (h : step s (env, .clkIrq level) = .ok t) :
    freq env s = .ok t :=
  (assert_bind.1 (show clkIrqHandler env s 0 level = .ok t from h)).2

/-- No expiry, no tick. -/
theorem step_of_idle (h : s.timer.Idle) (env : TimerEnv) :
    step s (env, .expire) = .ok s ∧ step s (env, .tick) = .ok s := by
  refine ⟨congrArg Except.ok (if_neg ?_), if_neg ?_⟩
  · rw [h.timer]; decide
  · rw [h.bh]; decide

theorem step_tick_of_scheduled (hbh : s.timer.bh = true) :
    step s (env, .tick) = tick env { s with timer := { s.timer with bh := false } } := if_pos hbh

/-- A tick runs only if it has been scheduled. -/
theorem step_tick (h : step s (env, .tick) = .ok t) :
    s.timer.bh = true ∧ tick env { s with timer := { s.timer with bh := false } } = .ok t ∨
      ¬ s.timer.bh = true ∧ t = s := by
  change (if s.timer.bh then tick env { s with timer := { s.timer with bh := false } } else .ok s) =
    .ok t at h
  split at h
  · rename_i hbh; exact .inl ⟨hbh, h⟩
  · rename_i hbh; cases h; exact .inr ⟨hbh, rfl⟩

end Stm32Timer

end Bluepill
