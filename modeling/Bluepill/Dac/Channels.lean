/-
  The two channels of the digital to analog converter.

  `Solo` is a converter that has only the first channel, and no noise generation.  As
  long as `WAVE1` does not select noise, the first channel of the device behaves like it
  (`step_solo`), but for one write: `DAC_SWTRIGR` is stored as a whole, so a trigger of the
  second channel alone clears a trigger of the first one that still waits for its load.

  Without such a write, the values of the first channel are those of the run in which the
  accesses to the second channel alone are left out (`channels_independent`).  That run does
  not fail: it converts on the second channel only when the other one does too (`Waits`).
-/
import Bluepill.Dac
import Bluepill.Rcc.Spec

namespace Bluepill

open Machine

namespace Stm32Dac

open Channel

/-- A trigger of the second channel alone. -/
def Op.triggersTwo : Op → Bool
  | .write 0x04 value _ => value.setWidth 32 == 2#32
  | _ => false

/-- An access to the second channel alone. -/
def Op.channelTwoOnly : Op → Bool
  | .write 0x14 _ _ | .write 0x18 _ _ | .write 0x1c _ _ => true
  | o => o.triggersTwo

/-- The first channel does not generate noise. -/
def Noiseless (s : Stm32Dac) : Prop := extract32 s.CR one.WAVE_START 2 ≠ 1

/-- The second channel is triggered while a trigger of the first one waits. -/
def LosesTrigger (s : Stm32Dac) (o : Op) : Prop := o.triggersTwo = true ∧ s.SWTRIGR.getLsbD 0 = true

instance (s : Stm32Dac) : Decidable s.Noiseless := inferInstanceAs (Decidable (_ ≠ _))

instance (s : Stm32Dac) (o : Op) : Decidable (s.LosesTrigger o) :=
  inferInstanceAs (Decidable (_ ∧ _))

/-- At each point of the run `DAC_DOR1` and `TRI_CNT1` are what they are in the run
    without the accesses to the second channel alone. -/
def Independent (s : Stm32Dac) (l : List (DacEnv × Op)) : Prop :=
  ∀ l₁ l₂ t, l = l₁ ++ l₂ → run step s l₁ = .ok t →
    ∃ t', run step s (l₁.filter fun o => !o.2.channelTwoOnly) = .ok t' ∧
      (t'.chan one).DOR = (t.chan one).DOR ∧ (t'.chan one).TRI_CNT = (t.chan one).TRI_CNT

/-! ## A converter with one channel -/

/-- The state of a converter with the first channel alone. -/
structure Solo where
  periph : Periph
  nsPerCycle : BitVec 64
  CR : BitVec 32
  swtrig : Bool
  Vref : BitVec 32
  chan : DacChannel
  dorTimer : Option (BitVec 64)
  triCntTimer : Option (BitVec 64)
  convTimer : Option (BitVec 64)

namespace Solo

variable (env : DacEnv) (v : Solo)

def addWave : Solo :=
  if extract32 v.CR one.WAVE_START 2 > 1 then
    { v with
      chan := { v.chan with DOR := v.chan.DOR + v.chan.TRI_CNT.setWidth 32 }
      triCntTimer := some (timerMod (env.now + 3 * v.nsPerCycle)) }
  else v

def trigger : Solo :=
  if extract32 v.CR one.TEN_BIT 1 ≠ 0 ∧ v.swtrig then { v.addWave env with swtrig := false } else v

def settle : Solo := { v with convTimer := some (timerMod (env.now + 3 * v.nsPerCycle)) }

def load : Solo :=
  settle env (trigger env { v with chan := { v.chan with DOR := v.chan.DACC_DHR.setWidth 32 } })

def writeDHR (value : BitVec 32) : Solo :=
  let v := { v with chan := { v.chan with DACC_DHR := value.setWidth 16 } }
  if extract32 v.CR one.TEN_BIT 1 = 0 then
    { v with dorTimer := some (timerMod (env.now + v.nsPerCycle)) }
  else v

def writeSWTRIGR (value : BitVec 32) : Solo :=
  if value = 2 then v
  else if value &&& one.SWTRIGR_MASK ≠ 0 then
    { v with swtrig := true, dorTimer := some (timerMod (env.now + v.nsPerCycle)) }
  else { v with swtrig := false }

def write (offset : ℕ) (value : BitVec 32) : Solo :=
  match offset with
  | 0x00 => { v with CR := value }
  | 0x04 => v.writeSWTRIGR env value
  | 0x08 => v.writeDHR env (value &&& 0xfff)
  | 0x0c => v.writeDHR env (value >>> 4 &&& 0xfff)
  | 0x10 => v.writeDHR env (value &&& 0xff)
  | 0x20 => v.writeDHR env (value &&& 0xfff)
  | 0x24 => v.writeDHR env (value >>> 4 &&& 0xfff)
  | 0x28 => v.writeDHR env (value &&& 0xff)
  | _ => v

def clkIrq : Solo :=
  match env.rcc.getPeriphFreq v.periph with
  | .ok clkFreq => { v with nsPerCycle := BitVec.ofNat 64 (1000000000 / clkFreq.toNat) }
  | .error _ => v

def expire (x : DacTimer) : Solo :=
  match x with
  | .DOR1 => if v.dorTimer.isSome then load env { v with dorTimer := none } else v
  | .TRI_CNT1 =>
    if v.triCntTimer.isSome then
      let maxAmplitude : BitVec 16 := 1#16 <<< ((MAMP v.CR one).toNat + 1) - 1
      { v with triCntTimer := none, chan := count maxAmplitude v.chan }
    else v
  | .CONV1 =>
    if v.convTimer.isSome then { v with convTimer := none, chan := output v.Vref v.chan } else v
  | .DOR2 | .TRI_CNT2 | .CONV2 | .LFSR => v

/-- The operations, where the device does not fail. -/
def step (o : DacEnv × Op) : Solo :=
  match o.2 with
  | .read _ _ => v
  | .write offset value _ => v.write o.1 offset (value.setWidth 32)
  | .clkIrq => v.clkIrq o.1
  | .expire x => v.expire o.1 x
  | .reset => { v with Vref := 2400, chan := { v.chan with incCnt := true, outPut := [] } }

end Solo

variable {env : DacEnv} {s t : Stm32Dac}

/-- The first channel of the device. -/
def solo (s : Stm32Dac) : Solo :=
  ⟨s.periph, s.nsPerCycle, s.CR, s.SWTRIGR.getLsbD 0, s.Vref, s.chan one, s.timer .DOR1,
    s.timer .TRI_CNT1, s.timer .CONV1⟩

/-! ## The second channel does not touch the first -/

/-- What neither wave generator changes, the two together do not change. -/
theorem addWave_inv {α : Type} {f : Stm32Dac → α} {c : Channel}
    (htri : ∀ t : Stm32Dac, f (t.addTriangle env c) = f t)
    (hnoise : ∀ t : Stm32Dac, f (t.addNoise env c) = f t) : f (s.addWave env c) = f s := by
  unfold addWave
  dsimp only
  split <;> split <;> simp only [htri, hnoise]

theorem trigger_inv {α : Type} {f : Stm32Dac → α} {c : Channel}
    (htri : ∀ t : Stm32Dac, f (t.addTriangle env c) = f t)
    (hnoise : ∀ t : Stm32Dac, f (t.addNoise env c) = f t)
    (hclear : ∀ t : Stm32Dac, f { t with SWTRIGR := t.SWTRIGR &&& ~~~ c.SWTRIGR_MASK } = f t) :
    f (s.trigger env c) = f s := by
  unfold trigger
  split
  · exact (hclear _).trans (addWave_inv htri hnoise)
  · rfl

/-- What the data of a channel and its first timer do not change, a write of its data does
    not change. -/
theorem writeDACCDHR_inv {α : Type} {f : Stm32Dac → α} {c : Channel}
    (hmod : ∀ (t : Stm32Dac) g, f (t.modChan c g) = f t)
    (harm : ∀ (t : Stm32Dac) e, f (t.arm c.dorTimer e) = f t) (value : BitVec 32) :
    f (s.writeDACCDHR env c value) = f s := by
  unfold writeDACCDHR
  dsimp only
  split
  · rw [harm, hmod]
  · rw [hmod]

theorem solo_trigger_two : (s.trigger env two).solo = s.solo := by
  have hclear : ∀ t : Stm32Dac,
      solo { t with SWTRIGR := t.SWTRIGR &&& ~~~ two.SWTRIGR_MASK } = t.solo := by
    intro t
    simp [solo, SWTRIGR_MASK]
  exact trigger_inv (f := solo) (fun _ => rfl) (fun _ => rfl) hclear

theorem solo_loadDOR2Registre : (s.loadDOR2Registre env).solo = s.solo := by
  have harm : ∀ (t : Stm32Dac) (e : BitVec 64), (t.arm .CONV2 e).solo = t.solo := fun _ _ => rfl
  exact (harm _ _).trans solo_trigger_two

theorem solo_writeDACC2DHR (value : BitVec 32) : (s.writeDACC2DHR env value).solo = s.solo :=
  writeDACCDHR_inv (f := solo) (fun _ _ => rfl) (fun _ _ => rfl) value

/-! ## The first channel -/

theorem solo_addWave_one (h : s.Noiseless) : (s.addWave env one).solo = s.solo.addWave env := by
  unfold addWave Solo.addWave
  dsimp only
  rw [if_neg h]
  exact apply_ite solo _ _ _

theorem swtrig_iff (v : BitVec 32) : extract32 v one.SWTRIG_BIT 1 ≠ 0 ↔ v.getLsbD 0 = true :=
  Word.extract_one_ne_zero v (by decide)

theorem solo_trigger_one (h : s.Noiseless) : (s.trigger env one).solo = s.solo.trigger env := by
  have hclear : ∀ t : Stm32Dac, solo { t with SWTRIGR := t.SWTRIGR &&& ~~~ one.SWTRIGR_MASK } =
      { t.solo with swtrig := false } := by
    intro t
    simp [solo, SWTRIGR_MASK]
  have hwaits : (extract32 s.CR one.TEN_BIT 1 ≠ 0 ∧ extract32 s.SWTRIGR one.SWTRIG_BIT 1 ≠ 0) ↔
      extract32 s.solo.CR one.TEN_BIT 1 ≠ 0 ∧ s.solo.swtrig := and_congr Iff.rfl (swtrig_iff _)
  unfold trigger Solo.trigger
  by_cases hw : extract32 s.CR one.TEN_BIT 1 ≠ 0 ∧ extract32 s.SWTRIGR one.SWTRIG_BIT 1 ≠ 0
  · rw [if_pos hw, if_pos (hwaits.1 hw)]
    dsimp only
    rw [hclear, solo_addWave_one h]
  · rw [if_neg hw, if_neg (mt hwaits.2 hw)]

theorem solo_loadDOR1Registre (h : s.Noiseless) :
    (s.loadDOR1Registre env).solo = s.solo.load env := by
  have harm : ∀ t : Stm32Dac,
      (t.arm .CONV1 (env.now + 3 * t.nsPerCycle)).solo = t.solo.settle env := fun _ => rfl
  exact (harm _).trans (congrArg (Solo.settle env) (solo_trigger_one h))

theorem solo_writeDACC1DHR (value : BitVec 32) :
    (s.writeDACC1DHR env value).solo = s.solo.writeDHR env value := by
  unfold writeDACC1DHR writeDACCDHR Solo.writeDHR
  dsimp only
  exact apply_ite solo _ _ _

theorem and_mask_one (value : BitVec 32) :
    value &&& one.SWTRIGR_MASK ≠ 0 ↔ value.getLsbD 0 = true :=
  Word.and_twoPow_ne_zero value (b := 0) (by decide)

/-- Only a trigger of the second channel alone can make a difference. -/
theorem solo_writeSWTRIGR {value : BitVec 32} (h : value = 2 → s.SWTRIGR.getLsbD 0 = false) :
    (s.writeSWTRIGR env value).solo = s.solo.writeSWTRIGR env value := by
  have htwo : ∀ (t : Stm32Dac) (e : BitVec 64),
      (if value &&& two.SWTRIGR_MASK ≠ 0 then t.arm .DOR2 e else t).solo = t.solo := by
    intro t e
    split <;> rfl
  have hstore : ∀ b, value.getLsbD 0 = b →
      solo { s with SWTRIGR := value &&& 3 } = { s.solo with swtrig := b } := by
    rintro b rfl
    simp [solo]
  have harm : ∀ t : Stm32Dac, (t.arm .DOR1 (env.now + t.nsPerCycle)).solo =
      { t.solo with dorTimer := some (timerMod (env.now + t.solo.nsPerCycle)) } := fun _ => rfl
  refine (htwo _ _).trans ?_
  unfold Solo.writeSWTRIGR
  by_cases hone : value &&& one.SWTRIGR_MASK ≠ 0
  · have hv : value ≠ 2 := by
      rintro rfl
      exact hone (by decide)
    rw [if_pos hone, if_neg hv, if_pos hone, harm, hstore true ((and_mask_one value).1 hone)]
  · have hbit : value.getLsbD 0 = false := Bool.eq_false_iff.2 (mt (and_mask_one value).2 hone)
    rw [if_neg hone, hstore false hbit]
    by_cases hv : value = 2
    · rw [if_pos hv, ← h hv]
      rfl
    · rw [if_neg hv, if_neg hone]

/-! ## The steps -/

theorem solo_write {offset : ℕ} {value : BitVec 64}
    (hl : offset = 0x04 → value.setWidth 32 = 2#32 → s.SWTRIGR.getLsbD 0 = false)
    (h : s.write env offset value = .ok t) :
    t.solo = s.solo.write env offset (value.setWidth 32) := by
  unfold write at h
  dsimp only at h
  split at h
  case h_1 =>
    unfold writeCR at h
    split_ifs at h
    cases h
    rfl
  case h_2 =>
    cases h
    exact solo_writeSWTRIGR (hl rfl)
  -- the registers of the first channel, those of the second and those of both
  case h_3 | h_4 | h_5 =>
    cases h
    exact solo_writeDACC1DHR _
  case h_6 | h_7 | h_8 =>
    cases h
    exact solo_writeDACC2DHR _
  case h_9 | h_10 | h_11 =>
    cases h
    exact (solo_writeDACC2DHR _).trans (solo_writeDACC1DHR _)
  case h_12 | h_13 => cases h
  case h_14 =>
    cases h
    unfold Solo.write
    split <;> first | rfl | contradiction

theorem convDACC_ok {c : Channel} (h : s.convDACC env c = .ok t) :
    checkPin env c.pin = .ok () ∧ t = s.modChan c (output s.Vref) := by
  obtain ⟨_, hpin, ht⟩ := bind_eq_ok.1 h
  cases ht
  exact ⟨hpin, rfl⟩

theorem solo_expire {x : DacTimer} (hq : s.Noiseless) (h : s.expire env x = .ok t) :
    t.solo = s.solo.expire env x := by
  unfold expire at h
  cases hx : (s.timer x).isSome with
  | false =>
    rw [hx] at h
    cases h
    cases x <;> first | rfl | exact (if_neg (by simpa [solo] using hx)).symm
  | true =>
    rw [if_pos hx] at h
    cases x with
    | DOR1 =>
      cases h
      refine (solo_loadDOR1Registre ?_).trans (if_pos hx).symm
      exact hq
    | DOR2 =>
      cases h
      exact solo_loadDOR2Registre
    | TRI_CNT1 =>
      cases h
      exact (if_pos hx).symm
    | TRI_CNT2 =>
      cases h
      rfl
    | CONV1 =>
      obtain ⟨-, rfl⟩ := convDACC_ok h
      exact (if_pos hx).symm
    | CONV2 =>
      obtain ⟨-, rfl⟩ := convDACC_ok h
      rfl
    | LFSR =>
      cases h
      rfl

theorem clkIrqHandler_ok (h : s.clkIrqHandler env = .ok t) :
    ∃ clkFreq, env.rcc.getPeriphFreq s.periph = .ok clkFreq ∧ clkFreq ≠ 0 ∧
      t = { s with nsPerCycle := BitVec.ofNat 64 (1000000000 / clkFreq.toNat) } := by
  obtain ⟨clkFreq, hfreq, h⟩ := bind_eq_ok.1 h
  split_ifs at h with hzero
  cases h
  exact ⟨clkFreq, hfreq, hzero, rfl⟩

/-- **The first channel behaves like a converter of its own** when it generates no noise and
    no trigger is lost. -/
theorem step_solo {o : DacEnv × Op} (hq : s.Noiseless) (hl : ¬ s.LosesTrigger o.2)
    (h : step s o = .ok t) : t.solo = s.solo.step o := by
  obtain ⟨env, o⟩ := o
  cases o with
  | read offset size =>
    cases h
    rfl
  | write offset value size =>
    refine solo_write ?_ h
    rintro rfl hv
    exact Bool.eq_false_iff.2 fun hone => hl ⟨beq_iff_eq.2 hv, hone⟩
  | clkIrq =>
    obtain ⟨clkFreq, hfreq, -, rfl⟩ := clkIrqHandler_ok h
    simp [Solo.step, Solo.clkIrq, solo, hfreq]
  | expire x => exact solo_expire hq h
  | reset =>
    cases h
    rfl

theorem Solo.step_channelTwoOnly (v : Solo) {o : DacEnv × Op} (h : o.2.channelTwoOnly = true) :
    v.step o = v := by
  obtain ⟨env, o⟩ := o
  unfold Op.channelTwoOnly at h
  dsimp only at h
  split at h
  · rfl
  · rfl
  · rfl
  · unfold Op.triggersTwo at h
    split at h
    · exact if_pos (beq_iff_eq.1 h)
    · cases h

/-! ## What the second channel waits for -/

/-- Whether the second channel waits for a load, and for the end of a conversion. -/
structure Waits where
  load : Bool
  conv : Bool

/-- At least as much is waited for. -/
def Waits.LE (w w' : Waits) : Prop := (w.load → w'.load) ∧ (w.conv → w'.conv)

def waits (s : Stm32Dac) : Waits := ⟨(s.timer .DOR2).isSome, (s.timer .CONV2).isSome⟩

namespace Waits

variable (w : Waits) (CR : BitVec 32)

def writeDHR : Waits := { w with load := w.load || extract32 CR two.TEN_BIT 1 == 0 }

def write (offset : ℕ) (value : BitVec 32) : Waits :=
  match offset with
  | 0x04 => { w with load := w.load || value &&& two.SWTRIGR_MASK != 0 }
  | 0x14 | 0x18 | 0x1c | 0x20 | 0x24 | 0x28 => w.writeDHR CR
  | _ => w

def step (o : Op) : Waits :=
  match o with
  | .write offset value _ => w.write CR offset (value.setWidth 32)
  | .expire .DOR2 => ⟨false, w.conv || w.load⟩
  | .expire .CONV2 => { w with conv := false }
  | _ => w

end Waits

theorem waits_trigger (c : Channel) : (s.trigger env c).waits = s.waits := by
  have htri : ∀ t : Stm32Dac, (t.addTriangle env c).waits = t.waits := by
    intro t
    cases c <;> rfl
  have hnoise : ∀ t : Stm32Dac, (t.addNoise env c).waits = t.waits := fun _ => rfl
  exact trigger_inv htri hnoise fun _ => rfl

theorem writeDACC1DHR_CR (value : BitVec 32) : (s.writeDACC1DHR env value).CR = s.CR :=
  writeDACCDHR_inv (f := Stm32Dac.CR) (fun _ _ => rfl) (fun _ _ => rfl) value

theorem waits_writeDACC1DHR (value : BitVec 32) : (s.writeDACC1DHR env value).waits = s.waits :=
  writeDACCDHR_inv (f := waits) (fun _ _ => rfl) (fun _ _ => rfl) value

theorem waits_arm_DOR2 (e : BitVec 64) :
    (s.arm .DOR2 e).waits = { s.waits with load := true } := rfl

theorem waits_writeDACC2DHR (value : BitVec 32) :
    (s.writeDACC2DHR env value).waits = s.waits.writeDHR s.CR := by
  refine (apply_ite waits _ _ _).trans ?_
  unfold Waits.writeDHR
  by_cases h : extract32 s.CR two.TEN_BIT 1 = 0
  · refine (if_pos h).trans ?_
    rw [h, beq_self_eq_true, Bool.or_true]
    exact waits_arm_DOR2 _
  · refine (if_neg h).trans ?_
    rw [beq_false_of_ne h, Bool.or_false]
    rfl

theorem waits_writeSWTRIGR (value : BitVec 32) : (s.writeSWTRIGR env value).waits =
    { s.waits with load := s.waits.load || value &&& two.SWTRIGR_MASK != 0 } := by
  have hone : ∀ (t : Stm32Dac) (e : BitVec 64),
      (if value &&& one.SWTRIGR_MASK ≠ 0 then t.arm .DOR1 e else t).waits = t.waits := by
    intro t e
    split <;> rfl
  refine (apply_ite waits _ _ _).trans ?_
  rw [waits_arm_DOR2, hone]
  by_cases h : value &&& two.SWTRIGR_MASK ≠ 0
  · rw [if_pos h, bne_iff_ne.2 h, Bool.or_true]
    rfl
  · rw [if_neg h, not_not.1 h, bne_self_eq_false, Bool.or_false]
    rfl

theorem waits_write {offset : ℕ} {value : BitVec 64} (h : s.write env offset value = .ok t) :
    t.waits = s.waits.write s.CR offset (value.setWidth 32) := by
  unfold write at h
  dsimp only at h
  split at h
  case h_1 =>
    unfold writeCR at h
    split_ifs at h
    cases h
    rfl
  case h_2 =>
    cases h
    exact waits_writeSWTRIGR _
  case h_3 | h_4 | h_5 =>
    cases h
    exact waits_writeDACC1DHR _
  case h_6 | h_7 | h_8 =>
    cases h
    exact waits_writeDACC2DHR _
  case h_9 | h_10 | h_11 =>
    cases h
    rw [waits_writeDACC2DHR, waits_writeDACC1DHR, writeDACC1DHR_CR]
    rfl
  case h_12 | h_13 => cases h
  case h_14 =>
    cases h
    unfold Waits.write
    split <;> first | rfl | contradiction

theorem waits_expire {x : DacTimer} (h : s.expire env x = .ok t) :
    t.waits = s.waits.step s.CR (.expire x) := by
  unfold expire at h
  cases hx : (s.timer x).isSome with
  | false =>
    rw [hx] at h
    cases h
    cases x <;> first | rfl | simp [waits, Waits.step, hx]
  | true =>
    rw [if_pos hx] at h
    cases x with
    | DOR1 =>
      cases h
      exact waits_trigger one
    | DOR2 =>
      cases h
      have harm : ∀ (t : Stm32Dac) (e : BitVec 64),
          (t.arm .CONV2 e).waits = { t.waits with conv := true } := fun _ _ => rfl
      have hload : s.waits.load = true := hx
      rw [Waits.step, hload, Bool.or_true]
      exact (harm _ _).trans
        (congrArg (fun w : Waits => { w with conv := true }) (waits_trigger two))
    | TRI_CNT1 | TRI_CNT2 | LFSR =>
      cases h
      rfl
    | CONV1 | CONV2 =>
      obtain ⟨-, rfl⟩ := convDACC_ok h
      rfl

theorem waits_step {o : DacEnv × Op} (h : step s o = .ok t) : t.waits = s.waits.step s.CR o.2 := by
  obtain ⟨env, o⟩ := o
  cases o with
  | read offset size =>
    cases h
    rfl
  | write offset value size => exact waits_write h
  | clkIrq =>
    obtain ⟨-, -, -, rfl⟩ := clkIrqHandler_ok h
    rfl
  | expire x => exact waits_expire h
  | reset =>
    cases h
    rfl

/-! ## Leaving out the second channel -/

theorem write_ok_of_ok {s' : Stm32Dac} {offset : ℕ} {value : BitVec 64}
    (h : s.write env offset value = .ok s') : ∃ t', t.write env offset value = .ok t' := by
  unfold write
  dsimp only
  split
  case h_1 =>
    simp only [write, writeCR] at h ⊢
    split_ifs at h ⊢
    exact ⟨_, rfl⟩
  case h_12 | h_13 => cases h
  all_goals exact ⟨_, rfl⟩

theorem checkPin_of_expire {c : Channel} (hx : (s.timer c.convTimer).isSome = true)
    (h : s.expire env c.convTimer = .ok t) : checkPin env c.pin = .ok () := by
  unfold expire at h
  rw [if_pos hx] at h
  cases c with
  | one => exact (convDACC_ok h).1
  | two => exact (convDACC_ok h).1

/-- Only a conversion can fail. -/
theorem exists_expire {x : DacTimer}
    (h : ∀ c : Channel, x = c.convTimer → (t.timer x).isSome = true → checkPin env c.pin = .ok ()) :
    ∃ t', t.expire env x = .ok t' := by
  unfold expire
  cases hx : (t.timer x).isSome with
  | false => exact ⟨t, rfl⟩
  | true =>
    cases x with
    | DOR1 | DOR2 | TRI_CNT1 | TRI_CNT2 | LFSR => exact ⟨_, rfl⟩
    | CONV1 => exact ⟨_, bind_eq_ok.2 ⟨(), h one rfl hx, rfl⟩⟩
    | CONV2 => exact ⟨_, bind_eq_ok.2 ⟨(), h two rfl hx, rfl⟩⟩

/-- `t` follows `s` without the second channel. -/
structure Follows (s t : Stm32Dac) : Prop where
  solo : s.solo = t.solo
  waits : t.waits.LE s.waits

theorem Follows.refl (s : Stm32Dac) : Follows s s := ⟨rfl, id, id⟩

theorem Follows.isSome_convTimer (hf : Follows s t) (c : Channel)
    (hx : (t.timer c.convTimer).isSome = true) : (s.timer c.convTimer).isSome = true := by
  cases c with
  | one =>
    have hsolo : s.timer .CONV1 = t.timer .CONV1 := congrArg Solo.convTimer hf.solo
    exact (congrArg Option.isSome hsolo).trans hx
  | two => exact hf.waits.2 hx

theorem Follows.exists_step {s' : Stm32Dac} {o : DacEnv × Op} (hf : Follows s t)
    (h : step s o = .ok s') : ∃ t', step t o = .ok t' := by
  obtain ⟨env, o⟩ := o
  cases o with
  | read offset size => exact ⟨t, rfl⟩
  | write offset value size => exact write_ok_of_ok h
  | clkIrq =>
    obtain ⟨clkFreq, hfreq, hzero, -⟩ := clkIrqHandler_ok h
    have hperiph : s.periph = t.periph := congrArg Solo.periph hf.solo
    rw [hperiph] at hfreq
    exact ⟨_, bind_eq_ok.2 ⟨clkFreq, hfreq, if_neg hzero⟩⟩
  | expire x =>
    refine exists_expire ?_
    rintro c rfl hx
    exact checkPin_of_expire (hf.isSome_convTimer c hx) h
  | reset => exact ⟨_, rfl⟩

theorem Waits.LE.step {w w' : Waits} (h : w.LE w') (CR : BitVec 32) (o : Op) :
    (w.step CR o).LE (w'.step CR o) := by
  have hor : ∀ b : Bool,
      Waits.LE { w with load := w.load || b } { w' with load := w'.load || b } := by
    intro b
    refine ⟨fun hb => ?_, h.2⟩
    rw [Bool.or_eq_true] at hb ⊢
    exact hb.imp_left h.1
  unfold Waits.step
  split
  · unfold Waits.write
    split
    · exact hor _
    all_goals first | exact hor _ | exact h
  · refine ⟨nofun, fun hb => ?_⟩
    rw [Bool.or_eq_true] at hb ⊢
    exact hb.imp h.2 h.1
  · exact ⟨h.1, nofun⟩
  · exact h

/-- An access to the second channel leaves nothing it waited for. -/
theorem Waits.le_step {w : Waits} {CR : BitVec 32} {o : Op} (h : o.channelTwoOnly = true) :
    w.LE (w.step CR o) := by
  have hor : ∀ b : Bool, w.LE { w with load := w.load || b } := by
    intro b
    refine ⟨fun hb => ?_, id⟩
    rw [Bool.or_eq_true]
    exact .inl hb
  unfold Op.channelTwoOnly at h
  split at h
  · exact hor _
  · exact hor _
  · exact hor _
  · unfold Op.triggersTwo at h
    split at h
    · exact hor _
    · cases h

theorem Follows.step {s' : Stm32Dac} {o : DacEnv × Op} (hf : Follows s t) (hq : s.Noiseless)
    (hl : ¬ s.LosesTrigger o.2) (h : Stm32Dac.step s o = .ok s') :
    ∃ t', Stm32Dac.step t o = .ok t' ∧ Follows s' t' := by
  obtain ⟨t', ht'⟩ := hf.exists_step h
  have hCR : s.CR = t.CR := congrArg Solo.CR hf.solo
  have hq' : t.Noiseless := by
    unfold Noiseless at hq ⊢
    rwa [← hCR]
  have hl' : ¬ t.LosesTrigger o.2 := by
    rintro ⟨ho, hone⟩
    exact hl ⟨ho, (congrArg Solo.swtrig hf.solo).trans hone⟩
  refine ⟨t', ht', ?_, ?_⟩
  · rw [step_solo hq hl h, step_solo hq' hl' ht', hf.solo]
  · rw [waits_step h, waits_step ht', hCR]
    exact hf.waits.step t.CR o.2

theorem Follows.skip {s' : Stm32Dac} {o : DacEnv × Op} (hf : Follows s t) (hq : s.Noiseless)
    (hl : ¬ s.LosesTrigger o.2) (ho : o.2.channelTwoOnly = true) (h : Stm32Dac.step s o = .ok s') :
    Follows s' t := by
  have hwaits : s.waits.LE s'.waits := by
    rw [waits_step h]
    exact Waits.le_step ho
  refine ⟨?_, fun hw => hwaits.1 (hf.waits.1 hw), fun hw => hwaits.2 (hf.waits.2 hw)⟩
  rw [step_solo hq hl h, Solo.step_channelTwoOnly _ ho, hf.solo]

/-- **The first channel does not depend on the second,** if it generates no noise and no
    trigger of it is lost to one of the second channel. -/
theorem channels_independent {l : List (DacEnv × Op)} (hq : ∀ t o, Takes step s l t o → t.Noiseless)
    (hl : ∀ t o, Takes step s l t o → ¬ t.LosesTrigger o.2) : Independent s l := by
  rintro l₁ l₂ t rfl ht
  have hrun : ∃ t',
      run step s (l₁.filter fun o => !o.2.channelTwoOnly) = .ok t' ∧ Follows t t' := by
    refine run_filter (R := Follows) (C := fun s o => Noiseless s ∧ ¬ LosesTrigger s o.2) ?_ ?_
      (Follows.refl s) (fun s' o h' => ⟨hq s' o (h'.append l₂), hl s' o (h'.append l₂)⟩) ht
    · intro s t o s' hf hC _ h
      exact hf.step hC.1 hC.2 h
    · intro s t o s' hf hC ho h
      exact hf.skip hC.1 hC.2 (by simpa using ho) h
  obtain ⟨t', ht', hf⟩ := hrun
  have hchan : t.chan one = t'.chan one := congrArg Solo.chan hf.solo
  exact ⟨t', ht', by rw [hchan], by rw [hchan]⟩

/-! ## A triangle on the first channel -/

/-- A board whose ports are analog inputs. -/
def analogPins (rcc : Stm32Rcc) : DacEnv := ⟨rcc, fun _ => Stm32Gpio.init, 0⟩

/-- The clocks of that board after the reset, with oscillators of 8 MHz and 32 kHz. -/
@[irreducible] def clocks : Except Fault Stm32Rcc := do
  let rcc ← Stm32Rcc.init 8000000 32768
  rcc.reset zeroHost

theorem clocks_ok {rcc : Stm32Rcc} (h : clocks = .ok rcc) :
    Stm32Rcc.Reachable zeroHost 8000000 32768 rcc := by
  unfold clocks at h
  obtain ⟨rcc₀, h₀, h₁⟩ := bind_eq_ok.1 h
  exact ⟨rcc₀, rcc, [], h₀, h₁, rfl⟩

/-- Both channels are triggered, the second one after the load of the first. -/
def triangle (rcc : Stm32Rcc) : List (DacEnv × Op) :=
  [.write 0x00 0x84 4, .write 0x14 5 4, .write 0x04 1 4, .expire .DOR1, .write 0x04 2 4,
    .expire .DOR2, .expire .TRI_CNT1].map (analogPins rcc, ·)

/-- The triangle on the first channel goes up one step. -/
theorem channels_independent_triangle : ∃ rcc t, Stm32Rcc.Reachable zeroHost 8000000 32768 rcc ∧
    run step (init .DAC) (triangle rcc) = .ok t ∧ (t.chan one).TRI_CNT = 1 ∧
      Independent (init .DAC) (triangle rcc) := by
  have hclocks : Post (fun rcc => Meets step (fun t _ => Noiseless t) (init .DAC) (triangle rcc) ∧
      Meets step (fun t o => ¬ LosesTrigger t o.2) (init .DAC) (triangle rcc) ∧
      Post (fun t => (t.chan one).TRI_CNT = 1) (fun _ => False)
        (run step (init .DAC) (triangle rcc)))
      (fun _ => False) clocks := by
    decide +kernel
  obtain ⟨rcc, hrcc, hq, hl, hrun⟩ := post_ok.1 hclocks
  obtain ⟨t, ht, hcnt⟩ := post_ok.1 hrun
  exact ⟨rcc, t, clocks_ok hrcc, ht, hcnt, channels_independent hq.takes hl.takes⟩

/-- The second channel is triggered before the load of the first. -/
def lostTriangle (rcc : Stm32Rcc) : List (DacEnv × Op) :=
  [.write 0x00 0x84 4, .write 0x04 1 4, .write 0x04 2 4, .expire .DOR1, .expire .TRI_CNT1].map
    (analogPins rcc, ·)

/-- The step of the triangle is lost with the trigger. -/
theorem not_independent_lostTriangle : ∃ rcc, Stm32Rcc.Reachable zeroHost 8000000 32768 rcc ∧
    (∀ t o, Takes step (init .DAC) (lostTriangle rcc) t o → t.Noiseless) ∧
      ¬ Independent (init .DAC) (lostTriangle rcc) := by
  have hclocks : Post (fun rcc =>
      Meets step (fun t _ => Noiseless t) (init .DAC) (lostTriangle rcc) ∧
      Post (fun t => (t.chan one).TRI_CNT = 0) (fun _ => False)
        (run step (init .DAC) (lostTriangle rcc)) ∧
      Post (fun t => (t.chan one).TRI_CNT = 1) (fun _ => False)
        (run step (init .DAC) ((lostTriangle rcc).filter fun o => !o.2.channelTwoOnly)))
      (fun _ => False) clocks := by
    decide +kernel
  obtain ⟨rcc, hrcc, hq, hfull, hrest⟩ := post_ok.1 hclocks
  refine ⟨rcc, clocks_ok hrcc, hq.takes, fun hind => ?_⟩
  obtain ⟨t, ht, hzero⟩ := post_ok.1 hfull
  obtain ⟨t₁, ht₁, hone⟩ := post_ok.1 hrest
  obtain ⟨t', ht', -, hcnt⟩ := hind _ [] t (List.append_nil _).symm ht
  cases ht₁.symm.trans ht'
  rw [hone, hzero] at hcnt
  exact absurd hcnt (by decide)

end Stm32Dac

end Bluepill
