/-
  The independent watchdog (`hw/arm/stm32_iwdg.c`).

  A key written to `KR` starts the watchdog, refreshes it or unlocks `PR` and `RLR`.
  When its timer expires, the reset flag of the RCC is set and the action chosen on
  the command line of QEMU is performed.

  A started watchdog keeps its deadline until it is refreshed (`watchdog_deadline_kept`).
  The key that unlocks `PR` and `RLR` is never revoked but by a reset, so these are
  protected only against writes that come before it (`protected_iff`).  The time-out is
  computed in 32 bits, from a prescaler that a reset does not keep in step with `PR`
  (`timeout_exact_iff`).

  The flags of type `int`, which are only ever `0` or `1`, are truth values.  `IWDG_SR`,
  which no function reads or writes, is left out.
-/
import Bluepill.Rcc

namespace Bluepill

/-- What the watchdog acts on: the RCC, and the calls of `watchdog_perform_action`. -/
structure WatchdogEnv where
  rcc : Stm32Rcc
  actions : ℕ

/-- `struct Stm32Iwdg`.  `timer` is the deadline of the timer, if it is pending. -/
structure Stm32Iwdg where
  rebootEnabled : Bool
  enabled : Bool
  timer : Option (BitVec 64)
  timerReload : BitVec 32
  prescaler : BitVec 32
  unlockState : Bool
  previousRebootFlag : Bool
  KR : BitVec 32
  PR : BitVec 32
  RLR : BitVec 32
  deriving DecidableEq

namespace Stm32Iwdg

/-- `tim_period`, in nanoseconds and in 32 bits. -/
def timPeriod (s : Stm32Iwdg) : BitVec 32 :=
  let period := 1000000 * s.prescaler / 40
  period * s.RLR

/-- `tim_next_transition`. -/
def timNextTransition (s : Stm32Iwdg) (currentTime : BitVec 64) : BitVec 64 :=
  currentTime + s.timPeriod.setWidth 64

/-- `iwdg_restart_timer`. -/
def restartTimer (now : BitVec 64) (d : Stm32Iwdg) : Stm32Iwdg :=
  if !d.enabled then d else { d with timer := some (timerMod (d.timNextTransition now)) }

/-- `iwdg_disable_timer`. -/
def disableTimer (d : Stm32Iwdg) : Stm32Iwdg := { d with timer := none }

/-- `iwdg_reset`.  `PR` keeps its value. -/
def reset (d : Stm32Iwdg) : Stm32Iwdg :=
  { d.disableTimer with
    rebootEnabled := false, enabled := false, prescaler := 4, timerReload := 0xfff, RLR := 0xfff
    unlockState := false }

/-- `iwdg_timer_expired`. -/
def timerExpired (d : Stm32Iwdg) (env : WatchdogEnv) : Stm32Iwdg × WatchdogEnv :=
  if d.rebootEnabled then
    (reset { d with previousRebootFlag := true },
      { rcc := env.rcc.setResetFlags (1 <<< 29), actions := env.actions + 1 })
  else (d, env)

/-- `iwdg_read`. -/
def read (d : Stm32Iwdg) (offset : ℕ) : BitVec 64 :=
  match offset with
  | 0x04 => d.PR.setWidth 64
  | 0x08 => d.RLR.setWidth 64
  | _ => 0

/-- What `iwdg_write` does on the key in `KR`. -/
def key (now : BitVec 64) (s : Stm32Iwdg) : Stm32Iwdg :=
  if s.KR = 0xCCCC then
    { s with
      enabled := true, rebootEnabled := true, timer := some (timerMod (s.timNextTransition now)) }
  else if s.KR = 0xAAAA then restartTimer now { s with timerReload := s.RLR }
  else if s.KR = 0x5555 then { s with unlockState := true }
  else s

/-- `iwdg_write`. -/
def write (now : BitVec 64) (s : Stm32Iwdg) (offset : ℕ) (data : BitVec 64) : Stm32Iwdg :=
  match offset with
  | 0x00 => key now { s with KR := (data &&& 0xFFFF).setWidth 32 }
  | 0x04 =>
    if s.unlockState then
      let PR := (data &&& 0x07).setWidth 32
      { s with PR, prescaler := 4 <<< PR.toNat }
    else s
  | 0x08 => if s.unlockState then { s with RLR := (data &&& 0x07FF).setWidth 32 } else s
  | _ => s

/-- `iwdg_init`: the registers of a new device are zero. -/
def init : Stm32Iwdg := ⟨false, false, none, 0, 0, false, false, 0, 0, 0⟩

/-! ## The device -/

/-- What can happen to the watchdog: an access of the guest, the passing of the deadline,
    a reset. -/
inductive Op where
  | read (offset : ℕ)
  | write (now : BitVec 64) (offset : ℕ) (data : BitVec 64)
  | expire
  | reset

/-- An operation.  A timer that expires is no longer pending when its callback runs. -/
def step (x : Stm32Iwdg × WatchdogEnv) : Op → Stm32Iwdg × WatchdogEnv
  | .read _ => x
  | .write now offset data => (x.1.write now offset data, x.2)
  | .expire => if x.1.timer.isSome then timerExpired { x.1 with timer := none } x.2 else x
  | .reset => (x.1.reset, x.2)

/-- An access of the guest. -/
def Op.Guest : Op → Prop
  | .read _ | .write _ _ _ => True
  | .expire | .reset => False

/-- A write of `key` to `KR`. -/
def Op.Key (key : BitVec 16) : Op → Prop
  | .write _ offset data => offset = 0x00 ∧ data.setWidth 16 = key
  | .read _ | .expire | .reset => False

instance (o : Op) : Decidable o.Guest :=
  match o with
  | .read _ | .write _ _ _ => isTrue trivial
  | .expire | .reset => isFalse id

instance (key : BitVec 16) (o : Op) : Decidable (o.Key key) :=
  match o with
  | .write _ offset data => inferInstanceAs (Decidable (offset = 0x00 ∧ data.setWidth 16 = key))
  | .read _ | .expire | .reset => isFalse id

/-! ## A watchdog that runs -/

/-- The watchdog was started: it counts, and will reboot. -/
structure Started (s : Stm32Iwdg) : Prop where
  enabled : s.enabled = true
  reboot : s.rebootEnabled = true
  pending : s.timer.isSome = true

/-- The comparison of the key, on the low half of the value written. -/
theorem key_eq (data : BitVec 64) (key : BitVec 16) :
    (data &&& 0xFFFF).setWidth 32 = key.setWidth 32 ↔ data.setWidth 16 = key := by
  have hmask : (data &&& 0xFFFF).setWidth 32 = (data.setWidth 16).setWidth 32 := by
    apply BitVec.eq_of_toNat_eq
    rw [BitVec.toNat_setWidth, BitVec.toNat_and, BitVec.toNat_setWidth, BitVec.toNat_setWidth]
    exact congrArg (· % 2 ^ 32) (Nat.and_two_pow_sub_one_eq_mod data.toNat 16)
  rw [hmask]
  constructor
  · intro h
    have h' := congrArg (BitVec.setWidth 16) h
    simpa using h'
  · rintro rfl
    rfl

theorem key_started (now : BitVec 64) {s : Stm32Iwdg} (h : s.KR = 0xCCCC) : (s.key now).Started := by
  rw [key, if_pos h]
  exact ⟨rfl, rfl, rfl⟩

theorem Started.restartTimer {s : Stm32Iwdg} (h : s.Started) (now : BitVec 64) :
    (s.restartTimer now).Started := by
  rw [Stm32Iwdg.restartTimer, if_neg (by simp [h.enabled])]
  exact ⟨h.enabled, h.reboot, rfl⟩

theorem Started.key {s : Stm32Iwdg} (h : s.Started) (now : BitVec 64) : (s.key now).Started := by
  rw [Stm32Iwdg.key]
  split
  · exact ⟨rfl, rfl, rfl⟩
  · split
    · exact Started.restartTimer (s := { s with timerReload := s.RLR }) ⟨h.enabled, h.reboot, h.pending⟩ now
    · split
      · exact ⟨h.enabled, h.reboot, h.pending⟩
      · exact h

/-- The accesses of the guest to a started watchdog leave it started. -/
theorem Started.step {x : Stm32Iwdg × WatchdogEnv} (h : x.1.Started) {o : Op} (ho : o.Guest) :
    (step x o).1.Started := by
  cases o with
  | read => exact h
  | write now offset data =>
    change (x.1.write now offset data).Started
    unfold write
    split
    · exact Started.key (s := { x.1 with KR := (data &&& 0xFFFF).setWidth 32 })
        ⟨h.enabled, h.reboot, h.pending⟩ now
    · split
      · exact ⟨h.enabled, h.reboot, h.pending⟩
      · exact h
    · split
      · exact ⟨h.enabled, h.reboot, h.pending⟩
      · exact h
    · exact h
  | expire => exact ho.elim
  | reset => exact ho.elim

/-- Only the keys that start and refresh the watchdog move the deadline. -/
theorem key_timer (now : BitVec 64) {s : Stm32Iwdg} (hstart : s.KR ≠ 0xCCCC) (hrefresh : s.KR ≠ 0xAAAA) :
    (s.key now).timer = s.timer := by
  rw [key, if_neg hstart, if_neg hrefresh]
  split
  · rfl
  · rfl

/-- An access of the guest moves the deadline only with one of these keys. -/
theorem step_timer (x : Stm32Iwdg × WatchdogEnv) {o : Op} (ho : o.Guest)
    (hstart : ¬ o.Key 0xCCCC) (hrefresh : ¬ o.Key 0xAAAA) : (step x o).1.timer = x.1.timer := by
  cases o with
  | read => rfl
  | write now offset data =>
    change (x.1.write now offset data).timer = x.1.timer
    unfold write
    split
    · exact key_timer now (fun h => hstart ⟨rfl, (key_eq data 0xCCCC).1 h⟩)
        fun h => hrefresh ⟨rfl, (key_eq data 0xAAAA).1 h⟩
    · split
      · rfl
      · rfl
    · split
      · rfl
      · rfl
    · rfl
  | expire => exact ho.elim
  | reset => exact ho.elim

end Stm32Iwdg

open Stm32Iwdg in
/-- **A started watchdog cannot be stopped or postponed.**  After a start at any time, in
    any state, and accesses of the guest, further accesses without the keys that start and
    refresh it leave the timer pending, with the same deadline. -/
theorem watchdog_deadline_kept (x : Stm32Iwdg × WatchdogEnv) {start : Op} (hstart : start.Key 0xCCCC)
    {l m : List Op} (hl : ∀ o ∈ l, o.Guest)
    (hm : ∀ o ∈ m, o.Guest ∧ ¬ o.Key 0xCCCC ∧ ¬ o.Key 0xAAAA) :
    ∃ deadline,
      ((start :: l).foldl step x).1.timer = some deadline ∧
      ((start :: l ++ m).foldl step x).1.timer = some deadline ∧
      ((start :: l ++ m).foldl step x).1.enabled = true ∧
      ((start :: l ++ m).foldl step x).1.rebootEnabled = true := by
  have hx : (step x start).1.Started := by
    cases start with
    | write now offset data =>
      obtain ⟨rfl, hkey⟩ := hstart
      exact key_started now ((key_eq data 0xCCCC).2 hkey)
    | read => exact hstart.elim
    | expire => exact hstart.elim
    | reset => exact hstart.elim
  have hy : ((start :: l).foldl step x).1.Started :=
    List.foldlRecOn (motive := fun y => y.1.Started) l step hx fun _ h o ho => h.step (hl o ho)
  rw [List.foldl_append]
  set y := (start :: l).foldl step x
  have hz : (m.foldl step y).1.Started ∧ (m.foldl step y).1.timer = y.1.timer := by
    refine List.foldlRecOn (motive := fun z => z.1.Started ∧ z.1.timer = y.1.timer) m step ⟨hy, rfl⟩ ?_
    rintro z ⟨hz, htimer⟩ o ho
    obtain ⟨hguest, hs, hr⟩ := hm o ho
    exact ⟨hz.step hguest, (step_timer z hguest hs hr).trans htimer⟩
  obtain ⟨deadline, hd⟩ := Option.isSome_iff_exists.1 hy.pending
  exact ⟨deadline, hd, hz.2.trans hd, hz.1.enabled, hz.1.reboot⟩

open Stm32Iwdg in
/-- A watchdog after its first reset, with an RCC that has no clocks yet. -/
def freshWatchdog : Stm32Iwdg × WatchdogEnv :=
  (reset init,
    { rcc :=
        { oscFreq := 8000000, osc32Freq := 32768, APB1ENR := 0, APB2ENR := 0, AHBENR := 0
          CFGR_PLLMUL := 0, CFGR_PLLXTPRE := 0, CFGR_PLLSRC := 0, CFGR_PPRE1 := 0, CFGR_PPRE2 := 0
          CFGR_HPRE := 0, CFGR_SW := 0, RTC_SEL := 0, CSR_LPWRRSTFb := false, CSR_WWDGRSTFb := false
          CSR_IWDGRSTFb := false, warnings := [], clktree := .empty }
      actions := 0 })

open Stm32Iwdg in
/-- A start and a refresh; then the guest unlocks the registers and sets the longest
    prescaler, which does not move the deadline. -/
theorem watchdog_deadline_kept_unlocked : ∃ deadline,
    (([.write 5 0x00 0xCCCC, .read 0x08, .write 7 0x00 0xAAAA] : List Op).foldl step
      freshWatchdog).1.timer = some deadline ∧
    (([.write 5 0x00 0xCCCC, .read 0x08, .write 7 0x00 0xAAAA, .write 8 0x00 0x5555,
      .write 9 0x04 7] : List Op).foldl step freshWatchdog).1.timer = some deadline :=
  let ⟨deadline, hy, hz, _, _⟩ :=
    watchdog_deadline_kept freshWatchdog (show Op.Key 0xCCCC (.write 5 0x00 0xCCCC) by decide)
      (l := [.read 0x08, .write 7 0x00 0xAAAA]) (m := [.write 8 0x00 0x5555, .write 9 0x04 7])
      (by decide) (by decide)
  ⟨deadline, hy, hz⟩

/-! ## Write protection -/

namespace Stm32Iwdg

/-- The keys written since the last reset, the last one first.  An expiry that reboots is a
    reset. -/
def keys (s : Stm32Iwdg) (ks : List (BitVec 16)) : Op → List (BitVec 16)
  | .write _ 0x00 data => data.setWidth 16 :: ks
  | .expire => if s.timer.isSome && s.rebootEnabled then [] else ks
  | .reset => []
  | _ => ks

/-- An operation, with the keys so far. -/
def stepKeys (y : (Stm32Iwdg × WatchdogEnv) × List (BitVec 16)) (o : Op) :
    Except Fault ((Stm32Iwdg × WatchdogEnv) × List (BitVec 16)) :=
  .ok (step y.1 o, y.1.1.keys y.2 o)

/-- `PR` or `RLR` with a value written to it, and the prescaler that goes with it. -/
def store (s : Stm32Iwdg) (offset : ℕ) (data : BitVec 64) : Stm32Iwdg :=
  match offset with
  | 0x04 =>
    { s with
      PR := (data &&& 0x07).setWidth 32, prescaler := 4 <<< ((data &&& 0x07).setWidth 32).toNat }
  | 0x08 => { s with RLR := (data &&& 0x07FF).setWidth 32 }
  | _ => s

/-- A write to `PR` or `RLR` is stored if the last key was `0x5555`, and has no effect otherwise. -/
def Protected (y : (Stm32Iwdg × WatchdogEnv) × List (BitVec 16)) : Op → Prop
  | .write now offset data => offset = 0x04 ∨ offset = 0x08 →
      (step y.1 (.write now offset data)).1 =
        if y.2.head? = some 0x5555 then y.1.1.store offset data else y.1.1
  | _ => True

/-- A write to `PR` or `RLR` after the key `0x5555` comes before any other key, or changes
    nothing. -/
def Promptly (y : (Stm32Iwdg × WatchdogEnv) × List (BitVec 16)) : Op → Prop
  | .write _ offset data => offset = 0x04 ∨ offset = 0x08 → 0x5555 ∈ y.2 →
      y.2.head? = some 0x5555 ∨ y.1.1.store offset data = y.1.1
  | _ => True

variable {s : Stm32Iwdg}

/-- The lock only looks at `unlockState`. -/
theorem write_eq_store (now : BitVec 64) {offset : ℕ} (ho : offset = 0x04 ∨ offset = 0x08)
    (data : BitVec 64) :
    s.write now offset data = if s.unlockState then s.store offset data else s := by
  rcases ho with rfl | rfl
  · rfl
  · rfl

theorem restartTimer_unlockState (now : BitVec 64) (s : Stm32Iwdg) :
    (s.restartTimer now).unlockState = s.unlockState := by
  unfold restartTimer
  split <;> rfl

/-- No key locks the registers. -/
theorem key_unlockState (now : BitVec 64) (s : Stm32Iwdg) :
    (s.key now).unlockState = true ↔ s.KR = 0x5555 ∨ s.unlockState = true := by
  unfold key
  split
  · rename_i hKR
    simp [hKR]
  split
  · rename_i hKR
    rw [restartTimer_unlockState]
    simp [hKR]
  split
  · rename_i hKR
    simp [hKR]
  · rename_i hKR
    exact (or_iff_right hKR).symm

theorem write_unlockState (now : BitVec 64) {offset : ℕ} (ho : offset ≠ 0x00) (data : BitVec 64) :
    (s.write now offset data).unlockState = s.unlockState := by
  unfold write
  split
  · exact absurd rfl ho
  · split <;> rfl
  · split <;> rfl
  · rfl

/-- **The registers are unlocked if there was the key `0x5555` since the last reset,** whatever
    came after it. -/
theorem step_unlockState {x : Stm32Iwdg × WatchdogEnv} {ks : List (BitVec 16)}
    (h : x.1.unlockState = true ↔ 0x5555 ∈ ks) (o : Op) :
    (step x o).1.unlockState = true ↔ 0x5555 ∈ x.1.keys ks o := by
  cases o with
  | read => exact h
  | write now offset data =>
    by_cases ho : offset = 0x00
    · subst ho
      have hkey : (data &&& 0xFFFF).setWidth 32 = 0x5555 ↔ data.setWidth 16 = 0x5555 := key_eq data 0x5555
      refine (key_unlockState now _).trans ?_
      rw [keys, List.mem_cons, h, hkey, eq_comm]
    · have hkeys : x.1.keys ks (.write now offset data) = ks := by
        unfold keys
        split <;> simp_all
      rw [hkeys, ← h]
      exact Bool.eq_iff_iff.1 (write_unlockState now ho data)
  | expire =>
    simp only [step, keys, timerExpired]
    split
    · rename_i ht
      cases hr : x.1.rebootEnabled with
      | true => simp [ht, reset]
      | false => simpa [ht] using h
    · rename_i ht
      simpa [ht] using h
  | reset => simp [step, reset, keys]

theorem protected_iff_promptly {y : (Stm32Iwdg × WatchdogEnv) × List (BitVec 16)}
    (h : y.1.1.unlockState = true ↔ 0x5555 ∈ y.2) (o : Op) : Protected y o ↔ Promptly y o := by
  cases o with
  | write now offset data =>
    refine imp_congr_right fun ho => ?_
    rw [show (step y.1 (.write now offset data)).1 = y.1.1.write now offset data from rfl,
      write_eq_store now ho]
    by_cases hmem : 0x5555 ∈ y.2
    · rw [if_pos (h.2 hmem)]
      by_cases hhead : y.2.head? = some 0x5555
      · rw [if_pos hhead]
        exact iff_of_true rfl fun _ => .inl hhead
      · rw [if_neg hhead, or_iff_right hhead]
        exact ⟨fun hs _ => hs, fun hs => hs hmem⟩
    · have hhead : y.2.head? ≠ some 0x5555 := fun hh => hmem (List.mem_of_mem_head? hh)
      rw [if_neg (mt h.1 hmem), if_neg hhead]
      exact iff_of_true rfl fun hm => absurd hm hmem
  | read => exact Iff.rfl
  | expire => exact Iff.rfl
  | reset => exact Iff.rfl

end Stm32Iwdg

open Stm32Iwdg in
/-- **When `PR` and `RLR` are protected throughout a run** that starts with a reset. -/
theorem protected_iff (x : Stm32Iwdg × WatchdogEnv) (l : List Stm32Iwdg.Op) :
    (∀ y o, Machine.Takes stepKeys ((x.1.reset, x.2), []) l y o → Protected y o) ↔
      ∀ y o, Machine.Takes stepKeys ((x.1.reset, x.2), []) l y o → Promptly y o := by
  refine forall₃_congr fun y o hy => protected_iff_promptly ?_ o
  obtain ⟨l₁, l₂, -, hr⟩ := hy
  refine Machine.run_inv (I := fun y => y.1.1.unlockState = true ↔ 0x5555 ∈ y.2) ?_ ?_ hr
  · intro y o z hy hz
    cases hz
    exact step_unlockState hy o
  · simp [Stm32Iwdg.reset]

open Stm32Iwdg in
/-- The key `0x5555`, a refresh, and a write to `PR`: it gives the longest prescaler. -/
theorem not_protected_refresh : ∃ y,
    Machine.run stepKeys (freshWatchdog, []) [.write 5 0x00 0x5555, .write 7 0x00 0xAAAA] = .ok y ∧
    y.2.head? = some 0xAAAA ∧ y.1.1.prescaler = 4 ∧
    (step y.1 (.write 9 0x04 7)).1.prescaler = 512 ∧ ¬ Protected y (.write 9 0x04 7) := by
  refine ⟨_, rfl, rfl, rfl, by decide, fun h => ?_⟩
  exact absurd (h (.inl rfl)) (by decide)

/-! ## The time-out -/

namespace Stm32Iwdg

/-- The registers of a watchdog that was reset once.  The prescaler goes with the value of `PR`,
    or is still the one a reset leaves. -/
structure Scaled (s : Stm32Iwdg) : Prop where
  PR : s.PR.toNat ≤ 7
  RLR : s.RLR.toNat ≤ 0xfff
  prescaler : s.prescaler.toNat = 4 ∨ s.prescaler.toNat = 4 * 2 ^ s.PR.toNat

/-- The time-out of the registers the guest reads, in nanoseconds. -/
def timeout (s : Stm32Iwdg) : ℕ := 25000 * (4 * 2 ^ (s.read 0x04).toNat) * (s.read 0x08).toNat

variable {s : Stm32Iwdg}

theorem Scaled.reset (h : s.PR.toNat ≤ 7) : s.reset.Scaled := ⟨h, le_rfl, .inl rfl⟩

theorem Scaled.key (h : s.Scaled) (now : BitVec 64) : (s.key now).Scaled := by
  unfold Stm32Iwdg.key
  split
  · exact ⟨h.PR, h.RLR, h.prescaler⟩
  split
  · unfold restartTimer
    split
    · exact ⟨h.PR, h.RLR, h.prescaler⟩
    · exact ⟨h.PR, h.RLR, h.prescaler⟩
  split
  · exact ⟨h.PR, h.RLR, h.prescaler⟩
  · exact h

/-- A value of `PR`, and the shift that gives the prescaler. -/
theorem shiftLeft_PR (data : BitVec 64) :
    ((data &&& 0x07).setWidth 32).toNat ≤ 7 ∧
      ((4 : BitVec 32) <<< ((data &&& 0x07).setWidth 32).toNat).toNat =
        4 * 2 ^ ((data &&& 0x07).setWidth 32).toNat := by
  have hPR : ((data &&& 0x07).setWidth 32).toNat ≤ 7 := by
    rw [BitVec.toNat_setWidth, BitVec.toNat_and]
    exact (Nat.mod_le _ _).trans Nat.and_le_right
  refine ⟨hPR, ?_⟩
  generalize ((data &&& 0x07).setWidth 32).toNat = n at hPR
  have hpow : 2 ^ n ≤ 2 ^ 7 := Nat.pow_le_pow_right (by omega) hPR
  rw [BitVec.toNat_shiftLeft, Nat.shiftLeft_eq, Nat.mod_eq_of_lt]
  · rfl
  · change 4 * 2 ^ n < 2 ^ 32
    omega

theorem Scaled.write (h : s.Scaled) (now : BitVec 64) (offset : ℕ) (data : BitVec 64) :
    (s.write now offset data).Scaled := by
  unfold Stm32Iwdg.write
  split
  · exact Scaled.key (s := { s with KR := (data &&& 0xFFFF).setWidth 32 })
      ⟨h.PR, h.RLR, h.prescaler⟩ now
  · split
    · exact ⟨(shiftLeft_PR data).1, h.RLR, .inr (shiftLeft_PR data).2⟩
    · exact h
  · split
    · refine ⟨h.PR, ?_, h.prescaler⟩
      rw [BitVec.toNat_setWidth, BitVec.toNat_and]
      have hle : data.toNat &&& 0x07FF ≤ 0x07FF := Nat.and_le_right
      exact (Nat.mod_le _ _).trans (hle.trans (by omega))
    · exact h
  · exact h

theorem Scaled.step {x : Stm32Iwdg × WatchdogEnv} (h : x.1.Scaled) (o : Op) :
    (step x o).1.Scaled := by
  cases o with
  | read => exact h
  | write now offset data => exact h.write now offset data
  | expire =>
    simp only [Stm32Iwdg.step, timerExpired]
    split
    · split
      · exact Scaled.reset h.PR
      · exact ⟨h.PR, h.RLR, h.prescaler⟩
    · exact h
  | reset => exact Scaled.reset h.PR

/-- The period in 32 bits.  Only its product with `RLR` can exceed them. -/
theorem Scaled.timPeriod (h : s.Scaled) :
    s.timPeriod.toNat = 25000 * s.prescaler.toNat * s.RLR.toNat % 2 ^ 32 := by
  have hle : s.prescaler.toNat ≤ 512 := by
    have hpow : 2 ^ s.PR.toNat ≤ 2 ^ 7 := Nat.pow_le_pow_right (by omega) h.PR
    rcases h.prescaler with hp | hp <;> omega
  have hperiod : (1000000 * s.prescaler / 40).toNat = 25000 * s.prescaler.toNat := by
    rw [BitVec.toNat_udiv, BitVec.toNat_mul, show (1000000 : BitVec 32).toNat = 1000000 from rfl,
      show (40 : BitVec 32).toNat = 40 from rfl, Nat.mod_eq_of_lt (by omega)]
    omega
  rw [Stm32Iwdg.timPeriod, BitVec.toNat_mul, hperiod]

theorem timeout_eq (s : Stm32Iwdg) :
    s.timeout = 25000 * (4 * 2 ^ s.PR.toNat) * s.RLR.toNat := by
  simp only [timeout, read, BitVec.toNat_setWidth]
  rw [Nat.mod_eq_of_lt (by omega), Nat.mod_eq_of_lt (by omega)]

/-- **When the period is the time-out of the registers.**  After a reset the prescaler is the one
    of `PR = 0`, whatever `PR` is. -/
theorem Scaled.timPeriod_eq_timeout (h : s.Scaled) :
    s.timPeriod.toNat = s.timeout ↔
      (s.RLR = 0 ∨ s.prescaler.toNat = 4 * 2 ^ s.PR.toNat) ∧ s.timeout < 2 ^ 32 := by
  rw [h.timPeriod, timeout_eq]
  constructor
  · intro heq
    refine ⟨?_, heq ▸ Nat.mod_lt _ (by omega)⟩
    by_contra hne
    rw [not_or] at hne
    have hp : s.prescaler.toNat = 4 := h.prescaler.resolve_right hne.2
    have hRLR : 0 < s.RLR.toNat := Nat.pos_of_ne_zero fun h0 => hne.1 (BitVec.eq_of_toNat_eq h0)
    -- the short period does not exceed 32 bits, so the two products have one prescaler
    rw [hp, Nat.mod_eq_of_lt (by have := h.RLR; omega)] at heq
    have hpow := Nat.eq_of_mul_eq_mul_left (by omega) (Nat.eq_of_mul_eq_mul_right hRLR heq)
    exact hne.2 (hp.trans hpow)
  · rintro ⟨hRLR | hp, hlt⟩
    · simp [hRLR]
    · rw [hp, Nat.mod_eq_of_lt hlt]

/-- The deadline of a time and a period, both unsigned. -/
theorem timerMod_toInt {t p : ℕ} (ht : t < 2 ^ 63) (hp : p < 2 ^ 63) :
    (timerMod (BitVec.ofNat 64 t + BitVec.ofNat 64 p)).toInt =
      if t + p < 2 ^ 63 then ((t + p : ℕ) : ℤ) else 0 := by
  have hnat : (BitVec.ofNat 64 t + BitVec.ofNat 64 p).toNat = t + p := by
    rw [BitVec.toNat_add, BitVec.toNat_ofNat, BitVec.toNat_ofNat]
    omega
  have hint := BitVec.toInt_eq_toNat_cond (BitVec.ofNat 64 t + BitVec.ofNat 64 p)
  rw [hnat] at hint
  have hzero : (0 : BitVec 64).toInt = 0 := rfl
  simp only [timerMod, BitVec.slt, decide_eq_true_eq, hzero]
  by_cases hlt : t + p < 2 ^ 63
  · rw [if_pos (by omega)] at hint
    rw [if_pos hlt, if_neg (by omega), hint]
  · rw [if_neg (by omega)] at hint
    rw [if_neg hlt, if_pos (by omega), hzero]

/-- The key that starts the watchdog and, if it is enabled, the one that refreshes it set the
    deadline from the period. -/
theorem write_key_timer (now : BitVec 64) {data : BitVec 64}
    (hkey : data.setWidth 16 = (0xCCCC : BitVec 16) ∨
      data.setWidth 16 = (0xAAAA : BitVec 16) ∧ s.enabled = true) :
    (s.write now 0x00 data).timer = some (timerMod (now + s.timPeriod.setWidth 64)) := by
  rcases hkey with hstart | ⟨hrefresh, henabled⟩
  · have hKR : (data &&& 0xFFFF).setWidth 32 = (0xCCCC : BitVec 32) := (key_eq data 0xCCCC).2 hstart
    simp only [Stm32Iwdg.write, Stm32Iwdg.key, hKR]
    rfl
  · have hKR : (data &&& 0xFFFF).setWidth 32 = (0xAAAA : BitVec 32) := (key_eq data 0xAAAA).2 hrefresh
    simp only [Stm32Iwdg.write, Stm32Iwdg.key, hKR, restartTimer, henabled]
    rfl

end Stm32Iwdg

open Stm32Iwdg in
/-- **When the time-out is exact.**  A start at the time `t`, or a refresh of an enabled watchdog,
    gives the deadline `t + s.timeout` if the prescaler is the one of `PR`, or does not count,
    and the time-out fits the 32 bits it is computed in and the 63 bits of a time. -/
theorem timeout_exact_iff (env : WatchdogEnv) (l : List Stm32Iwdg.Op) {s : Stm32Iwdg}
    (hs : (l.foldl step (init.reset, env)).1 = s) {t : ℕ} (ht : t < 2 ^ 63) {data : BitVec 64}
    (hkey : data.setWidth 16 = (0xCCCC : BitVec 16) ∨
      data.setWidth 16 = (0xAAAA : BitVec 16) ∧ s.enabled = true) :
    (∃ deadline, (s.write (BitVec.ofNat 64 t) 0x00 data).timer = some deadline ∧
        deadline.toInt = t + 25000 * (4 * 2 ^ (s.read 0x04).toNat) * (s.read 0x08).toNat) ↔
      ((s.RLR = 0 ∨ s.prescaler.toNat = 4 * 2 ^ s.PR.toNat) ∧ s.timeout < 2 ^ 32) ∧
        t + s.timeout < 2 ^ 63 := by
  have hscaled : s.Scaled := by
    rw [← hs]
    refine List.foldlRecOn (motive := fun x => x.1.Scaled) l step ?_ fun _ h o _ => h.step o
    exact Scaled.reset (s := init) (Nat.zero_le 7)
  have hlt : s.timPeriod.toNat < 2 ^ 63 := by omega
  have hcast : (25000 * (4 * 2 ^ (s.read 0x04).toNat) * (s.read 0x08).toNat : ℤ) = s.timeout := by
    rw [timeout]
    push_cast
    rfl
  simp only [write_key_timer (BitVec.ofNat 64 t) hkey, Option.some_inj, exists_eq_left', hcast]
  rw [← BitVec.ofNat_toNat, timerMod_toInt ht hlt, ← hscaled.timPeriod_eq_timeout]
  split
  · rename_i hsum
    constructor
    · intro h
      omega
    · rintro ⟨h, -⟩
      omega
  · rename_i hsum
    constructor
    · intro h
      omega
    · rintro ⟨h, hfit⟩
      omega

open Stm32Iwdg in
/-- The longest prescaler with a short reload: a refresh sets the deadline the registers give. -/
theorem timeout_exact_refresh : ∃ deadline,
    ((([.write 1 0x00 0x5555, .write 2 0x04 7, .write 3 0x08 0x100, .write 5 0x00 0xCCCC] : List Op).foldl
      step freshWatchdog).1.write (BitVec.ofNat 64 9) 0x00 0xAAAA).timer = some deadline ∧
    deadline.toInt = 9 + 25000 * (4 * 2 ^ 7) * 0x100 :=
  (timeout_exact_iff freshWatchdog.2
    [.write 1 0x00 0x5555, .write 2 0x04 7, .write 3 0x08 0x100, .write 5 0x00 0xCCCC] rfl
    (by decide) (.inr (by decide))).2 (by decide)

open Stm32Iwdg in
/-- With `PR = 7` and the reload of a reset, the time-out is computed modulo `2 ^ 32`.  After a
    further reset `PR` still reads `7`, and the watchdog expires after 409.5 ms instead of 52 s. -/
theorem not_timeout_exact :
    (∃ s, (([.write 1 0x00 0x5555, .write 2 0x04 7] : List Op).foldl step freshWatchdog).1 = s ∧
      s.read 0x04 = 7 ∧ s.read 0x08 = 0xfff ∧ s.prescaler = 512 ∧
      (s.write 5 0x00 0xCCCC).timer = some (5 + 876392448)) ∧
    (∃ s, (([.write 1 0x00 0x5555, .write 2 0x04 7, .reset] : List Op).foldl step freshWatchdog).1 = s ∧
      s.read 0x04 = 7 ∧ s.read 0x08 = 0xfff ∧ s.prescaler = 4 ∧
      (s.write 5 0x00 0xCCCC).timer = some (5 + 409500000)) ∧
    25000 * (4 * 2 ^ 7) * 0xfff = 52416000000 := by
  refine ⟨⟨_, rfl, ?_⟩, ⟨_, rfl, ?_⟩, rfl⟩
  · decide
  · decide

end Bluepill
