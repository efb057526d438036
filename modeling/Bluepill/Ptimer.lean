/-
  The countdown timer of QEMU (`hw/core/ptimer.c`).

  A `Ptimer` counts down from `delta`, one step each `period` nanoseconds (and
  `periodFrac` fractions of them).  Its end is an expiry of a `QEMUTimer`
  (`timer`); what it is for runs later, as a bottom half (`bh` is set while one is
  scheduled).  The period comes from a frequency and is never negative, so the
  signed and the unsigned divisions agree.

  * `reload_enabled`: a reload never starts the timer, and stops it only if there
    is nothing to count or no period;
  * the other lemmas say which operations can start or stop it.
-/
import Bluepill.Qemu

namespace Bluepill

/-- The values of `enabled`. -/
inductive PtimerMode where
  | disabled
  | periodic
  | oneshot
  deriving DecidableEq

/-- `struct ptimer_state`. -/
structure Ptimer where
  enabled : PtimerMode
  limit : BitVec 64
  delta : BitVec 64
  periodFrac : BitVec 32
  period : BitVec 64
  lastEvent : BitVec 64
  nextEvent : BitVec 64
  bh : Bool
  timer : Option (BitVec 64)

namespace Ptimer

/-- `ptimer_init`. -/
def init : Ptimer where
  enabled := .disabled
  limit := 0
  delta := 0
  periodFrac := 0
  period := 0
  lastEvent := 0
  nextEvent := 0
  bh := false
  timer := none

/-- `ptimer_trigger`. -/
def trigger (s : Ptimer) : Ptimer := { s with bh := true }

/-- The next countdown starts from the limit. -/
def refill (s : Ptimer) : Ptimer := if s.delta = 0 then { s.trigger with delta := s.limit } else s

/-- `ptimer_reload`. -/
def reload (s : Ptimer) : Ptimer :=
  let s := s.refill
  if s.delta = 0 ∨ s.period = 0 then { s with enabled := .disabled }
  else
    let nextEvent := s.nextEvent + s.delta * s.period +
      if s.periodFrac ≠ 0 then (s.periodFrac.setWidth 64 * s.delta) >>> 32 else 0
    { s with lastEvent := s.nextEvent, nextEvent, timer := some nextEvent }

/-- `ptimer_tick`: the `QEMUTimer` has expired. -/
def tick (s : Ptimer) : Ptimer :=
  let s := { s.trigger with delta := 0 }
  if s.enabled = .oneshot then { s with enabled := .disabled } else s.reload

/-- `clz64`. -/
def clz64 (v : BitVec 64) : ℕ := if v = 0 then 64 else 63 - v.toNat.log2

/-- The divisor of `ptimer_get_count`: the period, scaled by `shift`, with as much
    of its fraction as fits, rounded up. -/
def scaledPeriod (s : Ptimer) (shift : ℕ) : BitVec 64 :=
  let div := s.period <<< shift
  if shift ≥ 32 then div ||| (s.periodFrac.setWidth 64 <<< (shift - 32))
  else
    let div := if shift ≠ 0 then div ||| (s.periodFrac >>> (32 - shift)).setWidth 64 else div
    if s.periodFrac <<< shift ≠ 0 then div + 1 else div

/-- `ptimer_get_count`. -/
def getCount (now : BitVec 64) (s : Ptimer) : Except Fault (BitVec 64) :=
  if s.enabled ≠ .disabled then
    if 0 < (now - s.nextEvent).toInt ∨ s.period = 0 then .ok 0
    else
      let rem := s.nextEvent - now
      let shift := min (clz64 rem) (clz64 s.period)
      let div := s.scaledPeriod shift
      if div = 0 then .error .divByZero else .ok (rem <<< shift / div)
  else .ok s.delta

/-- A running timer is reloaded from now on. -/
def restart (now : BitVec 64) (s : Ptimer) : Ptimer :=
  if s.enabled ≠ .disabled then reload { s with nextEvent := now } else s

/-- `ptimer_set_count`. -/
def setCount (now : BitVec 64) (s : Ptimer) (count : BitVec 64) : Ptimer :=
  restart now { s with delta := count }

/-- `ptimer_run`. -/
def run (now : BitVec 64) (s : Ptimer) (oneshot : Bool) : Ptimer :=
  if s.enabled ≠ .disabled then s
  else if s.period = 0 then s
  else reload { s with enabled := if oneshot then .oneshot else .periodic, nextEvent := now }

/-- `ptimer_stop`. -/
def stop (now : BitVec 64) (s : Ptimer) : Except Fault Ptimer :=
  if s.enabled = .disabled then .ok s
  else do
    let delta ← s.getCount now
    .ok { s with delta, timer := none, enabled := .disabled }

/-- `ptimer_set_freq`. -/
def setFreq (now : BitVec 64) (s : Ptimer) (freq : BitVec 32) : Except Fault Ptimer :=
  if freq = 0 then .error .divByZero
  else .ok (restart now { s with
    period := 1000000000 / freq.setWidth 64
    periodFrac := ((1000000000 <<< 32 : BitVec 64) / freq.setWidth 64).setWidth 32 })

/-- `ptimer_set_limit`: no timeout is shorter than ten microseconds. -/
def setLimit (now : BitVec 64) (s : Ptimer) (limit : BitVec 64) (reload : Bool) : Ptimer :=
  let limit := if limit * s.period < 10000 ∧ s.period ≠ 0 then 10000 / s.period else limit
  let s := { s with limit }
  if reload then restart now { s with delta := limit } else s

/-! ## Starting and stopping -/

variable {s t : Ptimer} {now : BitVec 64}

/-- **A reload** leaves the timer as it is, or disables it if there is nothing to
    count down or no period. -/
theorem reload_enabled (s : Ptimer) : s.reload.enabled =
    if (s.delta = 0 ∧ s.limit = 0) ∨ s.period = 0 then .disabled else s.enabled := by
  have hdelta : s.refill.delta = 0 ↔ s.delta = 0 ∧ s.limit = 0 := by
    unfold refill
    split
    · rename_i h; exact ⟨fun h' => ⟨h, h'⟩, fun h' => h'.2⟩
    · rename_i h; exact ⟨fun h' => absurd h' h, fun h' => h'.1⟩
  have hperiod : s.refill.period = s.period := by unfold refill; split <;> rfl
  have henabled : s.refill.enabled = s.enabled := by unfold refill; split <;> rfl
  have hstop : s.refill.delta = 0 ∨ s.refill.period = 0 ↔
      (s.delta = 0 ∧ s.limit = 0) ∨ s.period = 0 := or_congr hdelta (by rw [hperiod])
  unfold reload
  dsimp only
  split
  · rename_i h; rw [if_pos (hstop.1 h)]
  · rename_i h; rw [if_neg fun h' => h (hstop.2 h')]; exact henabled

theorem restart_enabled (h : s.enabled ≠ .disabled) : (s.restart now).enabled =
    if (s.delta = 0 ∧ s.limit = 0) ∨ s.period = 0 then .disabled else s.enabled := by
  unfold restart
  rw [if_pos h]; exact reload_enabled _

theorem stop_enabled (h : s.stop now = .ok t) : t.enabled = .disabled := by
  unfold stop at h
  split at h
  · rename_i hd; cases h; exact hd
  · obtain ⟨delta, -, h⟩ := Machine.bind_eq_ok.1 h
    cases h; rfl

/-- Not running, and nothing on its way: no expiry is pending, and nothing is
    scheduled. -/
structure Idle (s : Ptimer) : Prop where
  enabled : s.enabled = .disabled
  timer : s.timer = none
  bh : s.bh = false

instance (s : Ptimer) : Decidable s.Idle :=
  decidable_of_iff (s.enabled = .disabled ∧ s.timer = none ∧ s.bh = false)
    ⟨fun ⟨h₁, h₂, h₃⟩ => ⟨h₁, h₂, h₃⟩, fun ⟨h₁, h₂, h₃⟩ => ⟨h₁, h₂, h₃⟩⟩

theorem idle_init : init.Idle := ⟨rfl, rfl, rfl⟩

theorem Idle.restart (h : s.Idle) : (s.restart now).Idle := by
  unfold Ptimer.restart
  rw [if_neg (not_not_intro h.enabled)]; exact h

theorem Idle.setCount (h : s.Idle) (count : BitVec 64) : (s.setCount now count).Idle :=
  Idle.restart ⟨h.enabled, h.timer, h.bh⟩

theorem Idle.setLimit (h : s.Idle) (limit : BitVec 64) (b : Bool) :
    (s.setLimit now limit b).Idle := by
  unfold Ptimer.setLimit
  dsimp only
  split
  · exact Idle.restart ⟨h.enabled, h.timer, h.bh⟩
  · exact ⟨h.enabled, h.timer, h.bh⟩

theorem Idle.setFreq (h : s.Idle) {freq : BitVec 32} (ht : s.setFreq now freq = .ok t) : t.Idle := by
  unfold Ptimer.setFreq at ht
  split at ht
  · cases ht
  · cases ht; exact Idle.restart ⟨h.enabled, h.timer, h.bh⟩

theorem Idle.stop (h : s.Idle) : s.stop now = .ok s := if_pos h.enabled

/-- A running timer has something to count, a period and an expiry pending. -/
def Live (s : Ptimer) : Prop := s.enabled ≠ .disabled → s.delta ≠ 0 ∧ s.period ≠ 0 ∧ s.timer ≠ none

theorem live_of_disabled (h : s.enabled = .disabled) : s.Live := fun hon => absurd h hon

theorem live_reload (s : Ptimer) : s.reload.Live := by
  unfold reload
  dsimp only
  split
  case isTrue => exact live_of_disabled rfl
  case isFalse h =>
    rw [not_or] at h
    exact fun _ => ⟨h.1, h.2, Option.some_ne_none _⟩

theorem live_restart (s : Ptimer) : (s.restart now).Live := by
  unfold Ptimer.restart
  split
  case isTrue => exact live_reload _
  case isFalse h => exact live_of_disabled (not_not.1 h)

theorem live_tick (s : Ptimer) : s.tick.Live := by
  unfold tick
  dsimp only
  split
  case isTrue => exact live_of_disabled rfl
  case isFalse => exact live_reload _

theorem live_setFreq {freq : BitVec 32} (h : s.setFreq now freq = .ok t) : t.Live := by
  unfold Ptimer.setFreq at h
  split at h
  · cases h
  · cases h
    exact live_restart _

theorem Live.setLimit (h : s.Live) (limit : BitVec 64) (b : Bool) : (s.setLimit now limit b).Live := by
  unfold Ptimer.setLimit
  dsimp only
  split
  case isTrue => exact live_restart _
  case isFalse => exact h

theorem Live.run (h : s.Live) (b : Bool) : (s.run now b).Live := by
  unfold Ptimer.run
  split
  case isTrue => exact h
  case isFalse =>
    split
    case isTrue => exact h
    case isFalse => exact live_reload _

theorem live_stop (h : s.stop now = .ok t) : t.Live := live_of_disabled (stop_enabled h)

/-- A timer that is running and is reloaded is not idle: it has an expiry pending, or it had nothing to count and its
    bottom half is scheduled. -/
theorem restart_idle_iff (hp : s.enabled ≠ .disabled → s.period ≠ 0) : (s.restart now).Idle ↔ s.Idle := by
  refine ⟨fun h => ?_, Idle.restart⟩
  by_cases hd : s.enabled = .disabled
  · unfold Ptimer.restart at h
    rwa [if_neg (not_not.2 hd)] at h
  · unfold Ptimer.restart at h
    rw [if_pos hd, reload] at h
    dsimp only at h
    have hperiod : (refill { s with nextEvent := now }).period ≠ 0 := by
      unfold refill
      split <;> exact hp hd
    split at h
    case isTrue hstop =>
      have hdelta := hstop.resolve_right hperiod
      have hbh : (refill { s with nextEvent := now }).bh = true := by
        unfold refill at hdelta ⊢
        split
        case isTrue => rfl
        case isFalse hne =>
          rw [if_neg hne] at hdelta
          exact absurd hdelta hne
      have hoff := h.bh
      rw [hbh] at hoff
      cases hoff
    case isFalse => cases h.timer

/-- What `ptimer_stop` leaves idle: it deletes the expiry of a timer that is running, and nothing else. -/
def Stoppable (s : Ptimer) : Prop := s.bh = false ∧ (s.enabled = .disabled → s.timer = none)

theorem stop_idle_iff (h : s.stop now = .ok t) : t.Idle ↔ s.Stoppable := by
  unfold Ptimer.stop at h
  split at h
  case isTrue hd =>
    cases h
    exact ⟨fun h => ⟨h.bh, fun _ => h.timer⟩, fun h => ⟨hd, h.2 hd, h.1⟩⟩
  case isFalse hd =>
    obtain ⟨delta, -, h⟩ := Machine.bind_eq_ok.1 h
    cases h
    exact ⟨fun h => ⟨h.bh, fun hd' => absurd hd' hd⟩, fun h => ⟨rfl, rfl, h.1⟩⟩

/-- The period of a frequency of more than 1 GHz is rounded to `0`: the timer is then disabled with its expiry
    pending. -/
theorem setFreq_stoppable_iff {freq : BitVec 32} (hs : s.Live) (h : s.setFreq now freq = .ok t) :
    t.Stoppable ↔ s.Stoppable ∧ (s.enabled ≠ .disabled → freq.toNat ≤ 1000000000) := by
  unfold Ptimer.setFreq at h
  split at h
  case isTrue => cases h
  case isFalse hf =>
    cases h
    unfold Ptimer.restart
    by_cases hd : s.enabled = .disabled
    · rw [if_neg (not_not.2 hd)]
      exact ⟨fun h => ⟨h, fun hon => absurd hd hon⟩, fun h => h.1⟩
    · obtain ⟨hdelta, -, htimer⟩ := hs hd
      have hwide : (freq.setWidth 64).toNat = freq.toNat := BitVec.toNat_setWidth_of_le (by decide)
      have hpos : 0 < freq.toNat := by
        refine Nat.pos_of_ne_zero fun h0 => hf (BitVec.eq_of_toNat_eq h0)
      have hperiod : (1000000000 / freq.setWidth 64 : BitVec 64) = 0 ↔ ¬ freq.toNat ≤ 1000000000 := by
        rw [← BitVec.toNat_inj, BitVec.toNat_udiv, hwide]
        show 1000000000 / freq.toNat = 0 ↔ _
        rw [Nat.div_eq_zero_iff]
        omega
      rw [if_pos hd, reload, refill, if_neg hdelta]
      dsimp only
      by_cases hfast : freq.toNat ≤ 1000000000
      · rw [if_neg (not_or.2 ⟨hdelta, fun h0 => hperiod.1 h0 hfast⟩)]
        exact ⟨fun h => ⟨⟨h.1, fun hd' => absurd hd' hd⟩, fun _ => hfast⟩, fun h => ⟨h.1.1, fun hd' => absurd hd' hd⟩⟩
      · rw [if_pos (.inr (hperiod.2 hfast))]
        exact ⟨fun h => absurd (h.2 rfl) htimer, fun h => absurd (h.2 hd) hfast⟩

/-- Without a period the timer stays idle. -/
theorem Idle.run (h : s.Idle) (b : Bool) (hp : s.period = 0) : (s.run now b).Idle := by
  unfold Ptimer.run
  rw [if_neg (not_not_intro h.enabled), if_pos hp]; exact h

end Ptimer

end Bluepill
