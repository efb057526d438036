/-
  The timers and the RTC without a clock.

  Both devices count by a `Ptimer`, and neither stops it when the frequency of its
  clock becomes `0`: it goes on at the last frequency (`running_without_clock`).

  They are stopped without a clock (`stopped_without_clock`) if

  * the `Ptimer` is idle when an access to the RCC switches the clock off;
  * a timer is enabled without a clock only if it has never had one;
  * the clock of the RTC is disabled when a write to `BDCR` leaves it without a
    frequency.  Otherwise the write can feed the clock first and disable it after,
    and the `Ptimer` is started in between.
-/
import Bluepill.Board
import Bluepill.Rcc.RtcClock
import Bluepill.Rtc

namespace Bluepill

open Rcc ClkTree Machine
open Stm32Rcc (Access)

variable {host : Host} {irq : Irq} {oscFreq osc32Freq : BitVec 32} {env : TimerEnv}

/-! ## Devices with a counter -/

/-- If the access leaves the peripheral `p` without a clock, then `Q`. -/
def IfOff (host : Host) (p : Periph) (s : Stm32Rcc) (o : Access) (Q : Prop) : Prop :=
  Post (fun s' => s'.getPeriphFreq p = .ok 0 → Q) (fun _ => True) (s.step host o.1)

instance (host : Host) (p : Periph) (s : Stm32Rcc) (o : Access) (Q : Prop) [Decidable Q] :
    Decidable (IfOff host p s o Q) :=
  inferInstanceAs (Decidable (Post _ _ _))

/-- A device that counts by a `Ptimer`. -/
structure Counter (δ : Type) where
  periph : δ → Periph
  ptimer : δ → Ptimer

namespace Counter

variable {δ ε ο : Type} (D : Counter δ) {K : Client δ ε ο} {p : Periph} {c : ClkId} {b : Board δ}
  {e : ε}

/-- The invariant: without a clock the counter is idle. -/
structure Rested (irq : Irq) (p : Periph) (c : ClkId) (b : Board δ) : Prop where
  kept : b.Kept irq c
  periph : D.periph b.dev = p
  idle : b.freq c = 0 → (D.ptimer b.dev).Idle

variable {D}

/-- An access to the RCC that leaves the peripheral without a clock only if `Q`. -/
theorem rcc_rested (hp : PERIPHCLK p = some c) {o : Access} {Q : Prop}
    (ho : IfOff host p b.rcc o Q)
    (h : Post (fun b' => b'.Kept irq c ∧ D.periph b'.dev = p ∧
        (Q → b'.freq c = 0 → (D.ptimer b'.dev).Idle)) (fun _ => True)
      (Board.step K host irq b (.rcc e o))) :
    Post (D.Rested irq p c) (fun _ => True) (Board.step K host irq b (.rcc e o)) := by
  cases hx : Board.step K host irq b (.rcc e o) with
  | error e => trivial
  | ok b' =>
    rw [hx] at h
    refine ⟨h.1, h.2.1, fun hf => h.2.2 ?_ hf⟩
    unfold IfOff at ho
    rw [Board.step_rcc hx] at ho
    exact ho ((b'.rcc.getPeriphFreq_eq hp).trans (congrArg _ hf))

/-- An operation of the device. -/
theorem dev_rested (hp : PERIPHCLK p = some c) {o : ο} (h : D.Rested irq p c b)
    (hstep : ∀ d, K.step e b.rcc b.dev o = .ok d → D.periph d = p ∧
      (b.rcc.getPeriphFreq p = .ok 0 → (D.ptimer b.dev).Idle → (D.ptimer d).Idle)) :
    Post (D.Rested irq p c) (fun _ => True) (Board.step K host irq b (.dev e o)) := by
  refine Post.of_ok fun b' hb' => ?_
  obtain ⟨d, hd, hb'⟩ := Machine.bind_eq_ok.1 hb'
  cases hb'
  obtain ⟨hper, hidle⟩ := hstep d hd
  refine ⟨⟨h.kept.synced, h.kept.listens⟩, hper, fun hf => hidle ?_ (h.idle hf)⟩
  exact (b.rcc.getPeriphFreq_eq hp).trans (congrArg _ hf)

end Counter

/-! ## The timers -/

namespace Stm32Timer

variable {p : Periph} {c : ClkId} {s t : Stm32Timer} {b : Board Stm32Timer}

/-- A timer as a device of the board; the environment is the time. -/
def client (p : Periph) : Client Stm32Timer (BitVec 64) Op where
  start _ _ := .ok (init p)
  clkIrq now rcc s := clkIrqHandler ⟨rcc, now⟩ s 0 true
  step now rcc s o := step s (⟨rcc, now⟩, o)

def counter : Counter Stm32Timer := ⟨periph, timer⟩

/-- The clock is switched off only if the counter is idle, and without a clock the
    timer is enabled only if it has never had one. -/
def Careful (host : Host) (p : Periph) (b : Board Stm32Timer) : Board.Op (BitVec 64) Op → Prop
  | .rcc _ o => IfOff host p b.rcc o b.dev.timer.Idle
  | .dev _ (.write offset value) =>
    offset = 0x00 → value.getLsbD 0 = true → b.rcc.getPeriphFreq p = .ok 0 → b.dev.timer.period = 0
  | .dev _ _ => True

instance (host : Host) (p : Periph) (b : Board Stm32Timer) :
    (o : Board.Op (BitVec 64) Op) → Decidable (Careful host p b o)
  | .rcc _ o => inferInstanceAs (Decidable (IfOff host p b.rcc o b.dev.timer.Idle))
  | .dev _ o =>
    match o with
    | .write offset value =>
      inferInstanceAs (Decidable (offset = 0x00 → value.getLsbD 0 = true →
        b.rcc.getPeriphFreq p = .ok 0 → b.dev.timer.period = 0))
    | .read _ | .clkIrq _ | .expire | .tick => .isTrue trivial

/-- What keeps the counter idle. -/
def Rests (s t : Stm32Timer) : Prop := t.periph = s.periph ∧ (s.timer.Idle → t.timer.Idle)

theorem freq_rests (h : freq env s = .ok t) : Rests s t := by
  unfold freq at h
  obtain ⟨f, -, h⟩ := Machine.bind_eq_ok.1 h
  split at h
  · cases h
  split at h
  · obtain ⟨timer, htimer, h⟩ := Machine.bind_eq_ok.1 h
    cases h; exact ⟨rfl, fun hidle => hidle.setFreq htimer⟩
  · cases h; exact ⟨rfl, fun hidle => hidle⟩

/-- The counter can only be started by setting `CEN`. -/
theorem update_rests (h : update env s = .ok t) (hp : env.rcc.getPeriphFreq s.periph = .ok 0)
    (hcen : s.cr1 &&& 0x01 ≠ 0 → s.timer.period = 0) : Rests s t := by
  have hfreq : freq env s = .error .divByZero ∨ freq env s = .ok s := by
    unfold freq
    rw [hp, Machine.ok_bind]
    split
    · exact .inl rfl
    · right
      rw [if_neg]
      simp
  unfold update at h
  obtain ⟨s', hs', h⟩ := Machine.bind_eq_ok.1 h
  rcases hfreq with hfreq | hfreq
  · cases hs'.symm.trans hfreq
  cases hs'.symm.trans hfreq
  dsimp only at h
  split at h
  · rename_i hc
    cases h; exact ⟨rfl, fun hidle => hidle.run _ (hcen hc)⟩
  · obtain ⟨timer, htimer, h⟩ := Machine.bind_eq_ok.1 h
    cases h
    refine ⟨rfl, fun hidle => ?_⟩
    cases hidle.stop.symm.trans htimer
    exact hidle

theorem getLsbD_of_cen {value : BitVec 64} (h : (value &&& 0x3FF).setWidth 32 &&& (1 : BitVec 32) ≠ 0) :
    value.getLsbD 0 = true := by
  by_contra hv
  refine h ?_
  have hzero : ((value &&& 0x3FF).setWidth 32).getLsbD 0 = false := by simpa using hv
  show (value &&& 0x3FF).setWidth 32 &&& 1#32 = 0
  rw [BitVec.and_one_eq_setWidth_ofBool_getLsbD, hzero]; rfl

theorem write_rests {offset : ℕ} {value : BitVec 64} (h : s.write env offset value = .ok t)
    (hp : env.rcc.getPeriphFreq s.periph = .ok 0)
    (hcen : offset = 0x00 → value.getLsbD 0 = true → s.timer.period = 0) (hidle : s.timer.Idle) :
    t.timer.Idle := by
  unfold Stm32Timer.write at h
  split at h
  · exact (update_rests h hp fun hbit => hcen rfl (getLsbD_of_cen hbit)).2 hidle
  · cases h; exact hidle
  · cases h; exact hidle
  · cases h
    unfold egrWrite
    dsimp only
    split
    · exact hidle.setLimit (s.arr.setWidth 64) true
    · exact hidle
  · cases h; exact hidle
  · cases h; exact hidle
  · cases h; exact hidle
  · cases h; exact hidle.setCount _
  · exact (freq_rests h).2 hidle
  · cases h; exact hidle.setLimit (((value &&& 0xffff).setWidth 32 : BitVec 32).setWidth 64) true
  all_goals cases h; exact hidle

/-- **Without a clock the counter stays idle**, unless it is enabled. -/
theorem step_rests {o : Op} (h : step s (env, o) = .ok t)
    (hp : env.rcc.getPeriphFreq s.periph = .ok 0)
    (hcen : ∀ value, o = .write 0x00 value → value.getLsbD 0 = true → s.timer.period = 0)
    (hidle : s.timer.Idle) : t.timer.Idle := by
  cases o with
  | read offset => rw [step_read h]; exact hidle
  | write offset value =>
    exact write_rests h hp (fun ho => hcen value (by rw [ho])) hidle
  | clkIrq level => exact (freq_rests h).2 hidle
  | expire =>
    simp only [step, hidle.timer, Option.isSome_none, Bool.false_eq_true, if_false] at h
    cases h; exact hidle
  | tick =>
    simp only [step, hidle.bh, Bool.false_eq_true, if_false] at h
    cases h; exact hidle

/-- No operation changes the peripheral. -/
theorem step_periph {o : Op} (h : step s (env, o) = .ok t) : t.periph = s.periph := by
  cases o with
  | read offset => rw [step_read h]
  | write offset value =>
    change s.write env offset value = .ok t at h
    unfold Stm32Timer.write at h
    split at h
    · obtain ⟨timer, rfl⟩ := update_eq h; rfl
    · cases h; rfl
    · cases h; rfl
    · cases h
      unfold egrWrite
      dsimp only
      split <;> rfl
    · cases h; rfl
    · cases h; rfl
    · cases h; rfl
    · cases h; rfl
    · exact (freq_rests h).1
    all_goals cases h; rfl
  | clkIrq level => exact (freq_rests h).1
  | expire =>
    cases h
    split <;> rfl
  | tick =>
    rcases step_tick h with ⟨-, h⟩ | ⟨-, rfl⟩
    · obtain ⟨_, _, _, rfl⟩ := tick_eq h; rfl
    · rfl

/-- **A step keeps the counter idle without a clock.** -/
theorem step_rested (hp : PERIPHCLK p = some c) {o : Board.Op (BitVec 64) Op}
    (h : counter.Rested irq p c b) (ho : Careful host p b o) :
    Post (counter.Rested irq p c) (fun _ => True) (Board.step (client p) host irq b o) := by
  cases o with
  | rcc now o =>
    -- the handler starts no counter, so an idle one is idle after all notifications
    refine Counter.rcc_rested hp ho (Post.mono (Board.rcc_post (J := fun _ => True)
      (T := fun _ => True) (P := fun _ s => s.periph = p ∧ (b.dev.timer.Idle → s.timer.Idle))
      (E := fun _ => True) (fun _ _ => Stm32Rcc.Ranged.allowed)
      (fun _ _ _ _ _ => ⟨trivial, fun _ => trivial⟩) trivial ?_ (Stm32Rcc.updates_ranged o)
      h.kept trivial ⟨h.periph, fun hidle => hidle⟩)
      (fun b' hb' => ⟨hb'.1, hb'.2.2.1, fun hidle _ => hb'.2.2.2 hidle⟩) fun _ _ => trivial)
    rintro v - rcc s f ⟨hs, hidle⟩ -
    refine Post.of_ok fun t ht => ?_
    have hrest : Rests s t := freq_rests ht
    exact ⟨hrest.1.trans hs, fun hb => hrest.2 (hidle hb)⟩
  | dev now o =>
    refine Counter.dev_rested hp h fun d hd => ?_
    have hstep : step b.dev (⟨b.rcc, now⟩, o) = .ok d := hd
    refine ⟨(step_periph hstep).trans h.periph, fun hoff => step_rests hstep ?_ ?_⟩
    · show b.rcc.getPeriphFreq b.dev.periph = .ok 0
      rw [show b.dev.periph = p from h.periph]; exact hoff
    · rintro value rfl hv
      exact ho rfl hv hoff

theorem made_rested {b₀ : Board Stm32Timer} (h : Board.Made (client p) irq oscFreq osc32Freq p b₀)
    (hp : PERIPHCLK p = some c) : counter.Rested irq p c b₀ := by
  obtain ⟨_, hstart⟩ := h.start
  have hdev : init p = b₀.dev := Except.ok.inj hstart
  refine ⟨h.kept hp, ?_, fun _ => ?_⟩
  · rw [← hdev]; rfl
  · rw [← hdev]; exact Ptimer.idle_init

end Stm32Timer

/-! ## The RTC -/

namespace Stm32Rtc

open Stm32Rcc (RTCCLK)

variable {s t : Stm32Rtc} {b : Board Stm32Rtc} {q : Prop} {f k : BitVec 32} {now : BitVec 64}

/-- The RTC as a device of the board; the environment is the time. -/
def client : Client Stm32Rtc (BitVec 64) Op where
  start _ _ := .ok (init .RTC)
  clkIrq now rcc s := clkIrqHandler ⟨rcc, now⟩ s 0 true
  step now rcc s o := step s (⟨rcc, now⟩, o)

def counter : Counter Stm32Rtc := ⟨periph, ptimer⟩

def writesBdcr : Stm32Rcc.Op → Bool
  | .write 0x20 _ 4 => true
  | _ => false

/-- The clock is switched off only if the counter is idle, by a write to `BDCR` only if
    it was disabled before. -/
def Careful (host : Host) (b : Board Stm32Rtc) : Board.Op (BitVec 64) Op → Prop
  | .rcc _ o => IfOff host .RTC b.rcc o
    (b.dev.ptimer.Idle ∧ (writesBdcr o.1 = true → b.rcc.clktree.isEnabled RTCCLK = false))
  | .dev _ _ => True

instance (host : Host) (b : Board Stm32Rtc) :
    (o : Board.Op (BitVec 64) Op) → Decidable (Careful host b o)
  | .rcc _ o => inferInstanceAs (Decidable (IfOff host .RTC b.rcc o _))
  | .dev _ _ => .isTrue trivial

theorem clkIrqHandler_rests (hf : env.rcc.getPeriphFreq s.periph = .ok f) {n : ℕ} {level : Bool}
    (h : clkIrqHandler env s n level = .ok t) :
    t.periph = s.periph ∧ (f = 0 → t.ptimer = s.ptimer) := by
  unfold clkIrqHandler at h
  rw [hf, Machine.ok_bind] at h
  dsimp only at h
  split at h
  · rename_i hne
    obtain ⟨ptimer, -, h⟩ := Machine.bind_eq_ok.1 h
    cases h
    exact ⟨rfl, fun h0 => absurd h0 hne⟩
  · cases h; exact ⟨rfl, fun _ => rfl⟩

theorem writeReg_rests {offset : ℕ} {value : BitVec 64} (h : s.writeReg offset value = .ok (some t)) :
    t.periph = s.periph ∧ t.ptimer = s.ptimer := by
  unfold writeReg at h
  split at h
  all_goals cases h
  all_goals exact ⟨rfl, rfl⟩

theorem write_rests {offset : ℕ} {value : BitVec 64} (h : s.write offset value = .ok t) :
    t.periph = s.periph ∧ t.ptimer = s.ptimer := by
  unfold Stm32Rtc.write at h
  split at h
  · cases h
  · obtain ⟨r, hr, h⟩ := Machine.bind_eq_ok.1 h
    cases r with
    | none => cases h; exact ⟨rfl, rfl⟩
    | some s' =>
      have hreg := writeReg_rests hr
      cases h; exact hreg

theorem tick_periph (env : TimerEnv) (s : Stm32Rtc) : (tick env s).periph = s.periph := by
  unfold tick startSecond updateIrq
  dsimp only
  split_ifs <;> rfl

/-- **Without a clock the counter stays idle.** -/
theorem step_rests {o : Op} (h : step s (env, o) = .ok t) :
    t.periph = s.periph ∧
      (env.rcc.getPeriphFreq s.periph = .ok 0 → s.ptimer.Idle → t.ptimer.Idle) := by
  cases o with
  | read offset =>
    obtain ⟨_, -, h⟩ := Machine.bind_eq_ok.1 h
    cases h; exact ⟨rfl, fun _ hidle => hidle⟩
  | write offset value =>
    obtain ⟨hper, htimer⟩ := write_rests h
    exact ⟨hper, fun _ hidle => htimer ▸ hidle⟩
  | clkIrq level =>
    change clkIrqHandler env s 0 level = .ok t at h
    cases hf : env.rcc.getPeriphFreq s.periph with
    | error e =>
      rw [clkIrqHandler, hf] at h
      cases h
    | ok f =>
      obtain ⟨hper, htimer⟩ := clkIrqHandler_rests hf h
      refine ⟨hper, fun h0 hidle => ?_⟩
      cases h0
      rw [htimer rfl]; exact hidle
  | expire =>
    cases h
    refine ⟨by split <;> rfl, fun _ hidle => ?_⟩
    rw [if_neg (by rw [hidle.timer]; decide)]; exact hidle
  | tick =>
    cases h
    refine ⟨?_, fun _ hidle => ?_⟩
    · split
      · exact tick_periph env _
      · rfl
    · rw [if_neg (by rw [hidle.bh]; decide)]; exact hidle
  | reset => cases h; exact ⟨rfl, fun _ hidle => hidle⟩

/-- The device in the middle of an access that changes the frequency to `k` only: if it
    was idle before (`q`), it is idle unless the clock has a frequency. -/
def Settled (q : Prop) (k f : BitVec 32) (s : Stm32Rtc) : Prop :=
  s.periph = .RTC ∧ (q → (k = 0 → s.ptimer.Idle) ∧ (f = 0 → s.ptimer.Idle))

theorem clkIrq_settled {v : ClkTree} (hv : v.getOutputFreq RTCCLK = k) (rcc : Stm32Rcc)
    (s : Stm32Rtc) (f : BitVec 32) (h : Settled q k f s)
    (hf : rcc.clktree.getOutputFreq RTCCLK = v.getOutputFreq RTCCLK) :
    Post (Settled q k (v.getOutputFreq RTCCLK)) (fun _ => True) (client.clkIrq now rcc s) := by
  refine Post.of_ok fun t ht => ?_
  change clkIrqHandler ⟨rcc, now⟩ s 0 true = .ok t at ht
  have hrest := clkIrqHandler_rests (by rw [h.1]; exact Stm32Rcc.getPeriphFreq_of rfl hf) ht
  refine ⟨hrest.1.trans h.1, fun hq => ?_⟩
  have hidle : v.getOutputFreq RTCCLK = 0 → t.ptimer.Idle := fun h0 => by
    rw [hrest.2 h0]
    exact (h.2 hq).1 (hv.symm.trans h0)
  exact ⟨fun h0 => hidle (hv.trans h0), hidle⟩

theorem stage_settled {A : ClkId → Update → Prop} (hA : ∀ c m, A c m → Allowed c m)
    (hset : Settles A b.rcc.clktree k) {g : Stm32Rcc → Except Fault Stm32Rcc}
    (hg : Stm32Rcc.Acts A b.rcc.clktree (g b.rcc)) (hb : b.Kept irq RTCCLK)
    (h : Settled q k (b.freq RTCCLK) b.dev) :
    Post (fun b' => b'.Kept irq RTCCLK ∧ Settled q k (b'.freq RTCCLK) b'.dev) (fun _ => True)
      (Board.stage client irq now b g) := by
  obtain ⟨J, hJ, hstep⟩ := hset
  refine Post.mono (Board.stage_post (E := fun _ => True) hA hstep trivial
    (fun v hv => clkIrq_settled hv) hg hb hJ h) (fun b' hb' => ⟨hb'.1, hb'.2.2⟩) fun _ _ => trivial

/-- An access to the RCC leaves the device one of the RTC. -/
theorem rcc_periph (hb : b.Kept irq RTCCLK) (h : b.dev.periph = .RTC) (o : Access) :
    Post (fun b' => b'.Kept irq RTCCLK ∧ b'.dev.periph = .RTC) (fun _ => True)
      (Board.step client host irq b (.rcc now o)) := by
  refine Post.mono (Board.rcc_post (J := fun _ => True) (T := fun _ => True)
    (P := fun _ s => s.periph = .RTC) (E := fun _ => True) (fun _ _ => Stm32Rcc.Ranged.allowed)
    (fun _ _ _ _ _ => ⟨trivial, fun _ => trivial⟩) trivial ?_ (Stm32Rcc.updates_ranged o)
    hb trivial h) (fun b' hb' => ⟨hb'.1, hb'.2.2⟩) fun _ _ => trivial
  rintro v - rcc s f hs hf
  refine Post.of_ok fun t ht => ?_
  change clkIrqHandler ⟨rcc, now⟩ s 0 true = .ok t at ht
  exact (clkIrqHandler_rests (by rw [hs]; exact Stm32Rcc.getPeriphFreq_of rfl hf) ht).1.trans hs

/-- A write to `BDCR` while the clock is disabled. -/
theorem bdcr_settled (hb : b.Kept irq RTCCLK) (h : b.dev.periph = .RTC)
    (hoff : Off b.rcc.clktree) (value : BitVec 64) :
    Post (fun b' => b'.Kept irq RTCCLK ∧ b'.dev.periph = .RTC ∧
        (b.dev.ptimer.Idle → b'.freq RTCCLK = 0 → b'.dev.ptimer.Idle)) (fun _ => True)
      (Board.step client host irq b (.rcc now (Access.write 0x20 value 4))) := by
  have hrange : ∀ m ∈ Stm32Rcc.bdcrUpdates host (value.setWidth 32), Stm32Rcc.Ranged m.1 m.2 :=
    Stm32Rcc.bdcrUpdates_ranged _
  simp only [Stm32Rcc.bdcrUpdates, List.forall_mem_cons] at hrange
  obtain ⟨hLSE, hSEL, hEN, -⟩ := hrange
  -- up to the selection of the input the clock stays off
  have hsel : Post (fun b' => b'.Kept irq RTCCLK ∧
      Settled b.dev.ptimer.Idle 0 (b'.freq RTCCLK) b'.dev) (fun _ => True)
      (Board.stage client irq now b fun s => s.bdcrSelect host (value.setWidth 32)) := by
    have hA : ∀ c m, (c = LSECLK ∧ m = .enabled (testBIT host (value.setWidth 32) 0) ∨
        c = RTCCLK ∧ m = .selectedInput
          ((value.setWidth 32 &&& (0x00000300 : BitVec 32)) >>> 8 - 1).toInt) → Allowed c m := by
      rintro c m (⟨rfl, rfl⟩ | ⟨rfl, rfl⟩)
      · exact hLSE.allowed
      · exact hSEL.allowed
    refine stage_settled hA (settles_off hoff hA ?_)
      (Stm32Rcc.bdcrSelect_acts hA hb.synced (.inl ⟨rfl, rfl⟩) (.inr ⟨rfl, rfl⟩)) hb
      ⟨h, fun hq => ⟨fun _ => hq, fun _ => hq⟩⟩
    rintro c m (⟨rfl, rfl⟩ | ⟨rfl, rfl⟩) hc
    · exact absurd hc (by decide)
    · exact Update.noConfusion
  show Post _ _ (List.foldlM (Board.stage client irq now) b
    [fun s => s.bdcrSelect host (value.setWidth 32), fun s => s.bdcrEnable (value.setWidth 32)])
  rw [List.foldlM_cons]
  refine hsel.bind fun b₁ _ hb₁ => ?_
  -- then there is one call at most
  have hA : ∀ c m, (c = RTCCLK ∧ m = .enabled ((value.setWidth 32 >>> 15 &&& (0x01 : BitVec 32)) != 0)) →
      Allowed c m := by
    rintro c m ⟨rfl, rfl⟩
    exact hEN.allowed
  obtain ⟨k, hk⟩ := settles_once hb₁.1.synced hEN.allowed hA fun c m hm => .inr hm
  rw [List.foldlM_cons]
  refine (stage_settled (q := b.dev.ptimer.Idle) hA hk
    (Stm32Rcc.bdcrEnable_acts hA hb₁.1.synced ⟨rfl, rfl⟩) hb₁.1 ⟨hb₁.2.1, fun hq => ?_⟩).bind
    fun b₂ _ hb₂ => ?_
  · exact ⟨fun _ => (hb₁.2.2 hq).1 rfl, fun _ => (hb₁.2.2 hq).1 rfl⟩
  · exact ⟨hb₂.1, hb₂.2.1, fun hq => (hb₂.2.2 hq).2⟩

theorem off_of_disabled {u : ClkTree} (h : u.Synced) (he : u.isEnabled RTCCLK = false) : Off u := by
  obtain ⟨g, hg⟩ := h
  have hm := hg.agrees.node RTCCLK (hg.size ▸ (by decide : RTCCLK < CLK_COUNT))
  exact ⟨g, hg, hm.enabled ▸ he⟩

/-- **A step keeps the counter idle without a clock.** -/
theorem step_rested {o : Board.Op (BitVec 64) Op} (h : counter.Rested irq .RTC RTCCLK b)
    (ho : Careful host b o) :
    Post (counter.Rested irq .RTC RTCCLK) (fun _ => True) (Board.step client host irq b o) := by
  cases o with
  | rcc now o =>
    refine Counter.rcc_rested rfl ho ?_
    by_cases hbdcr : ∃ v, o.1 = .write 0x20 v 4
    · obtain ⟨v, hv⟩ := hbdcr
      obtain ⟨o, hreg⟩ := o
      cases hv
      by_cases hen : b.rcc.clktree.isEnabled RTCCLK = false
      · refine (bdcr_settled h.kept h.periph (off_of_disabled h.kept.synced hen) v).mono
          (fun b' hb' => ⟨hb'.1, hb'.2.1, fun hq => hb'.2.2 hq.1⟩) fun _ he => he
      · refine (rcc_periph h.kept h.periph _).mono
          (fun b' hb' => ⟨hb'.1, hb'.2, fun hq => absurd (hq.2 rfl) hen⟩) fun _ he => he
    · obtain ⟨k, J, hJ, hstep⟩ := access_settles h.kept.synced o fun v hv => hbdcr ⟨v, hv⟩
      refine Post.mono (Board.rcc_post (P := Settled b.dev.ptimer.Idle k)
        (E := fun _ => True)
        (fun c m hm => Stm32Rcc.Ranged.allowed (Stm32Rcc.updates_ranged o.1 _ hm)) hstep trivial
        (fun v hv => clkIrq_settled hv) (fun m hm => hm) h.kept hJ
        ⟨h.periph, fun hq => ⟨fun _ => hq, fun _ => hq⟩⟩)
        (fun b' hb' => ⟨hb'.1, hb'.2.2.1, fun hq => (hb'.2.2.2 hq.1).2⟩) fun _ _ => trivial
  | dev now o =>
    refine Counter.dev_rested rfl h fun d hd => ?_
    have hstep : step b.dev (⟨b.rcc, now⟩, o) = .ok d := hd
    obtain ⟨hper, hrest⟩ := step_rests hstep
    refine ⟨hper.trans h.periph, fun hoff => hrest ?_⟩
    show b.rcc.getPeriphFreq b.dev.periph = .ok 0
    rw [show b.dev.periph = .RTC from h.periph]; exact hoff

/-- No expiry, no tick. -/
theorem step_of_idle (h : s.ptimer.Idle) (env : TimerEnv) :
    step s (env, .expire) = .ok s ∧ step s (env, .tick) = .ok s := by
  refine ⟨congrArg Except.ok (if_neg ?_), congrArg Except.ok (if_neg ?_)⟩
  · rw [h.timer]; decide
  · rw [h.bh]; decide

theorem made_rested {b₀ : Board Stm32Rtc} (h : Board.Made client irq oscFreq osc32Freq .RTC b₀) :
    counter.Rested irq .RTC RTCCLK b₀ := by
  obtain ⟨_, hstart⟩ := h.start
  have hdev : init .RTC = b₀.dev := Except.ok.inj hstart
  refine ⟨h.kept rfl, ?_, fun _ => ?_⟩
  · rw [← hdev]; rfl
  · rw [← hdev]; exact Ptimer.idle_init

end Stm32Rtc

/-! ## Without a clock -/

/-- **No clock, no ticks**: in every state that a timer or the RTC reaches by careful
    steps, if its clock has no frequency, then its counter does not run, and nothing is
    left of it that could expire or tick. -/
theorem stopped_without_clock (host : Host) (irq : Irq) (oscFreq osc32Freq : BitVec 32) :
    (∀ (p : Periph) (b₀ b : Board Stm32Timer) (ops : List (Board.Op (BitVec 64) Stm32Timer.Op)),
      Board.Made (Stm32Timer.client p) irq oscFreq osc32Freq p b₀ →
      (∀ t o, Takes (Board.step (Stm32Timer.client p) host irq) b₀ ops t o →
        Stm32Timer.Careful host p t o) →
      Machine.run (Board.step (Stm32Timer.client p) host irq) b₀ ops = .ok b →
      b.rcc.getPeriphFreq p = .ok 0 → b.dev.timer.enabled = .disabled ∧
        ∀ env, Stm32Timer.step b.dev (env, .expire) = .ok b.dev ∧
          Stm32Timer.step b.dev (env, .tick) = .ok b.dev) ∧
    (∀ (b₀ b : Board Stm32Rtc) (ops : List (Board.Op (BitVec 64) Stm32Rtc.Op)),
      Board.Made Stm32Rtc.client irq oscFreq osc32Freq .RTC b₀ →
      (∀ t o, Takes (Board.step Stm32Rtc.client host irq) b₀ ops t o →
        Stm32Rtc.Careful host t o) →
      Machine.run (Board.step Stm32Rtc.client host irq) b₀ ops = .ok b →
      b.rcc.getPeriphFreq .RTC = .ok 0 → b.dev.ptimer.enabled = .disabled ∧
        ∀ env, Stm32Rtc.step b.dev (env, .expire) = .ok b.dev ∧
          Stm32Rtc.step b.dev (env, .tick) = .ok b.dev) := by
  constructor
  · intro p b₀ b ops hmade hC hrun hoff
    obtain ⟨c, hp⟩ := hmade.clk
    have hpost : Post (Stm32Timer.counter.Rested irq p c) (fun _ => True)
        (Machine.run (Board.step (Stm32Timer.client p) host irq) b₀ ops) :=
      Post.run (fun t o ht ho => Stm32Timer.step_rested hp ht ho) (Stm32Timer.made_rested hmade hp) hC
    rw [hrun] at hpost
    have hidle : b.dev.timer.Idle :=
      hpost.idle (Except.ok.inj ((b.rcc.getPeriphFreq_eq hp).symm.trans hoff))
    exact ⟨hidle.enabled, Stm32Timer.step_of_idle hidle⟩
  · intro b₀ b ops hmade hC hrun hoff
    have hpost : Post (Stm32Rtc.counter.Rested irq .RTC Stm32Rcc.RTCCLK) (fun _ => True)
        (Machine.run (Board.step Stm32Rtc.client host irq) b₀ ops) :=
      Post.run (fun t o ht ho => Stm32Rtc.step_rested ht ho) (Stm32Rtc.made_rested hmade) hC
    rw [hrun] at hpost
    have hidle : b.dev.ptimer.Idle :=
      hpost.idle (Except.ok.inj ((b.rcc.getPeriphFreq_eq rfl).symm.trans hoff))
    exact ⟨hidle.enabled, Stm32Rtc.step_of_idle hidle⟩

/-- A board with TIM2.  Only the kernel evaluates it. -/
@[irreducible] def Stm32Timer.board : Except Fault (Board Stm32Timer) :=
  Board.make (Stm32Timer.client .TIM2) 8000000 32768 [(.TIM2, 1)] 0

/-- A board with the RTC.  Only the kernel evaluates it. -/
@[irreducible] def Stm32Rtc.board : Except Fault (Board Stm32Rtc) :=
  Board.make Stm32Rtc.client 8000000 32768 [(.RTC, 1)] 0

theorem Stm32Timer.board_made {b : Board Stm32Timer} (h : Stm32Timer.board = .ok b) :
    Board.Made (Stm32Timer.client .TIM2) 1 8000000 32768 .TIM2 b := by
  unfold Stm32Timer.board at h
  exact ⟨_, _, h, by decide, by simp⟩

theorem Stm32Rtc.board_made {b : Board Stm32Rtc} (h : Stm32Rtc.board = .ok b) :
    Board.Made Stm32Rtc.client 1 8000000 32768 .RTC b := by
  unfold Stm32Rtc.board at h
  exact ⟨_, _, h, by decide, by simp⟩

namespace Stm32Timer

/-- The clock is switched on and off again before the timer is used. -/
def unused : List (Board.Op (BitVec 64) Op) :=
  [.rcc 0 Access.reset, .rcc 0 (Access.write 0x1c 0x1 4), .dev 0 (.write 0x2c 1000),
    .rcc 0 (Access.write 0x1c 0x0 4)]

/-- It is switched off while the timer counts. -/
def gated : List (Board.Op (BitVec 64) Op) :=
  [.rcc 0 Access.reset, .rcc 0 (Access.write 0x1c 0x1 4), .dev 0 (.write 0x2c 1000),
    .dev 0 (.write 0x00 0x1), .rcc 0 (Access.write 0x1c 0x0 4)]

end Stm32Timer

namespace Stm32Rtc

/-- A clock is selected, but not enabled. -/
def unused : List (Board.Op (BitVec 64) Op) :=
  [.rcc 0 Access.reset, .rcc 0 (Access.write 0x24 0x1 4), .rcc 0 (Access.write 0x20 0x0200 4)]

/-- The clock is enabled, and disabled while the RTC counts. -/
def gated : List (Board.Op (BitVec 64) Op) :=
  [.rcc 0 Access.reset, .rcc 0 (Access.write 0x24 0x1 4), .rcc 0 (Access.write 0x20 0x8200 4),
    .rcc 0 (Access.write 0x20 0x0200 4)]

end Stm32Rtc

theorem stopped_without_clock_unused :
    (∃ b₀ b, Stm32Timer.board = .ok b₀ ∧
      Machine.run (Board.step (Stm32Timer.client .TIM2) zeroHost 1) b₀ Stm32Timer.unused = .ok b ∧
      b.rcc.getPeriphFreq .TIM2 = .ok 0 ∧ b.dev.timer.enabled = .disabled) ∧
    (∃ b₀ b, Stm32Rtc.board = .ok b₀ ∧
      Machine.run (Board.step Stm32Rtc.client zeroHost 1) b₀ Stm32Rtc.unused = .ok b ∧
      b.rcc.getPeriphFreq .RTC = .ok 0 ∧ b.dev.ptimer.enabled = .disabled) := by
  constructor
  · have h : Post (fun b₀ => Meets (Board.step (Stm32Timer.client .TIM2) zeroHost 1)
          (Stm32Timer.Careful zeroHost .TIM2) b₀ Stm32Timer.unused ∧
        Post (fun b => b.rcc.getPeriphFreq .TIM2 = .ok 0) (fun _ => False)
          (Machine.run (Board.step (Stm32Timer.client .TIM2) zeroHost 1) b₀ Stm32Timer.unused))
        (fun _ => False) Stm32Timer.board := by
      decide +kernel
    obtain ⟨b₀, hb₀, hmeets, h⟩ := Machine.post_ok.1 h
    obtain ⟨b, hb, hoff⟩ := Machine.post_ok.1 h
    exact ⟨b₀, b, hb₀, hb, hoff, ((stopped_without_clock _ _ _ _).1 _ _ _ _
      (Stm32Timer.board_made hb₀) hmeets.takes hb hoff).1⟩
  · have h : Post (fun b₀ => Meets (Board.step Stm32Rtc.client zeroHost 1)
          (Stm32Rtc.Careful zeroHost) b₀ Stm32Rtc.unused ∧
        Post (fun b => b.rcc.getPeriphFreq .RTC = .ok 0) (fun _ => False)
          (Machine.run (Board.step Stm32Rtc.client zeroHost 1) b₀ Stm32Rtc.unused))
        (fun _ => False) Stm32Rtc.board := by
      decide +kernel
    obtain ⟨b₀, hb₀, hmeets, h⟩ := Machine.post_ok.1 h
    obtain ⟨b, hb, hoff⟩ := Machine.post_ok.1 h
    exact ⟨b₀, b, hb₀, hb, hoff, ((stopped_without_clock _ _ _ _).2 _ _ _
      (Stm32Rtc.board_made hb₀) hmeets.takes hb hoff).1⟩

/-- TIM2 and the RTC go on when their clock is switched off: the flag of the timer is
    set, and the RTC counts a second. -/
theorem running_without_clock :
    (∃ b₀ b b', Stm32Timer.board = .ok b₀ ∧
      Machine.run (Board.step (Stm32Timer.client .TIM2) zeroHost 1) b₀ Stm32Timer.gated = .ok b ∧
      b.rcc.getPeriphFreq .TIM2 = .ok 0 ∧ b.dev.timer.enabled ≠ .disabled ∧
      Machine.run (Board.step (Stm32Timer.client .TIM2) zeroHost 1) b
        [.dev 62500 .expire, .dev 62500 .tick] = .ok b' ∧
      b.dev.sr.getLsbD 0 = false ∧ b'.dev.sr.getLsbD 0 = true) ∧
    (∃ b₀ b b', Stm32Rtc.board = .ok b₀ ∧
      Machine.run (Board.step Stm32Rtc.client zeroHost 1) b₀ Stm32Rtc.gated = .ok b ∧
      b.rcc.getPeriphFreq .RTC = .ok 0 ∧ b.dev.ptimer.enabled ≠ .disabled ∧
      Machine.run (Board.step Stm32Rtc.client zeroHost 1) b
        [.dev 1000000000 .expire, .dev 1000000000 .tick] = .ok b' ∧
      b.dev.CNTL = 0 ∧ b'.dev.CNTL = 1) := by
  constructor
  · have h : Post (fun b₀ => Post (fun b => b.rcc.getPeriphFreq .TIM2 = .ok 0 ∧
          b.dev.timer.enabled ≠ .disabled ∧
          Post (fun b' => b.dev.sr.getLsbD 0 = false ∧ b'.dev.sr.getLsbD 0 = true) (fun _ => False)
            (Machine.run (Board.step (Stm32Timer.client .TIM2) zeroHost 1) b
              [.dev 62500 .expire, .dev 62500 .tick])) (fun _ => False)
        (Machine.run (Board.step (Stm32Timer.client .TIM2) zeroHost 1) b₀ Stm32Timer.gated))
        (fun _ => False) Stm32Timer.board := by
      decide +kernel
    obtain ⟨b₀, hb₀, h⟩ := Machine.post_ok.1 h
    obtain ⟨b, hb, hoff, hrun, h⟩ := Machine.post_ok.1 h
    obtain ⟨b', hb', hflag⟩ := Machine.post_ok.1 h
    exact ⟨b₀, b, b', hb₀, hb, hoff, hrun, hb', hflag⟩
  · have h : Post (fun b₀ => Post (fun b => b.rcc.getPeriphFreq .RTC = .ok 0 ∧
          b.dev.ptimer.enabled ≠ .disabled ∧
          Post (fun b' => b.dev.CNTL = 0 ∧ b'.dev.CNTL = 1) (fun _ => False)
            (Machine.run (Board.step Stm32Rtc.client zeroHost 1) b
              [.dev 1000000000 .expire, .dev 1000000000 .tick])) (fun _ => False)
        (Machine.run (Board.step Stm32Rtc.client zeroHost 1) b₀ Stm32Rtc.gated))
        (fun _ => False) Stm32Rtc.board := by
      decide +kernel
    obtain ⟨b₀, hb₀, h⟩ := Machine.post_ok.1 h
    obtain ⟨b, hb, hoff, hrun, h⟩ := Machine.post_ok.1 h
    obtain ⟨b', hb', hcnt⟩ := Machine.post_ok.1 h
    exact ⟨b₀, b, b', hb₀, hb, hoff, hrun, hb', hcnt⟩

end Bluepill
