/-
  The ranges of the output registers and of the triangle counters.

  A counter changes its direction at the amplitude and at zero.  A reset makes it count up
  again wherever it is, so a reset at the top lets it pass the top (`triangle_iff`).

  A load adds the wave to the data of the channel and does not look at the sum, so the output
  register has twelve bits as long as the sum does; it does if the guest writes data that leave
  room for the largest wave and does not reset the device.  The conversion looks at the low
  twelve bits only (`dor_range_iff`).

  `step_chan` says what an operation does to a channel, and the rest is about channels.
-/
import Bluepill.Dac.Channels

namespace Bluepill

open Machine
open Channel (one two)

namespace Stm32Dac

variable {env : DacEnv} {s t : Stm32Dac} {c : Channel}

/-! ## What an operation does to a channel -/

/-- The value of the wave generator that `CR` selects for the channel. -/
def generated (s : Stm32Dac) (c : Channel) : BitVec 32 :=
  if extract32 s.CR c.WAVE_START 2 > 1 then (s.chan c).TRI_CNT.setWidth 32
  else if extract32 s.CR c.WAVE_START 2 = 1 then
    s.LFSR_VALUE.setWidth 32 &&& (1#32 <<< ((MAMP s.CR c).toNat + 1) - 1)
  else 0#32

/-- What a load adds to the data of the channel. -/
def wave (s : Stm32Dac) (c : Channel) : BitVec 32 :=
  if extract32 s.CR c.TEN_BIT 1 ≠ 0 ∧ extract32 s.SWTRIGR c.SWTRIG_BIT 1 ≠ 0 then s.generated c else 0#32

/-- Where the counter of the channel turns. -/
def maxAmplitude (s : Stm32Dac) (c : Channel) : BitVec 16 := 1#16 <<< ((MAMP s.CR c).toNat + 1) - 1

/-- The operation loads the output register of the channel. -/
def Loads (s : Stm32Dac) (c : Channel) : Op → Prop
  | .expire x => x = c.dorTimer ∧ (s.timer x).isSome = true
  | _ => False

/-- The operation updates the counter of the channel. -/
def Counts (s : Stm32Dac) (c : Channel) : Op → Prop
  | .expire x => x = c.triCntTimer ∧ (s.timer x).isSome = true
  | _ => False

instance (s : Stm32Dac) (c : Channel) (o : Op) : Decidable (s.Loads c o) :=
  match o with
  | .expire x => inferInstanceAs (Decidable (x = c.dorTimer ∧ (s.timer x).isSome = true))
  | .read _ _ | .write _ _ _ | .clkIrq | .reset => isFalse id

instance (s : Stm32Dac) (c : Channel) (o : Op) : Decidable (s.Counts c o) :=
  match o with
  | .expire x => inferInstanceAs (Decidable (x = c.triCntTimer ∧ (s.timer x).isSome = true))
  | .read _ _ | .write _ _ _ | .clkIrq | .reset => isFalse id

/-- The channel after an operation, up to the data written to it and its file. -/
def actOn (s : Stm32Dac) (c : Channel) (o : Op) : DacChannel :=
  if s.Loads c o then { s.chan c with DOR := (s.chan c).DACC_DHR.setWidth 32 + s.wave c }
  else if s.Counts c o then count (s.maxAmplitude c) (s.chan c)
  else match o with
    | .reset => { s.chan c with incCnt := true }
    | _ => s.chan c

/-- `ch'` is `ch` with other data, of twelve bits if those of `ch` are, and another file. -/
def Rewritten (ch ch' : DacChannel) : Prop :=
  ∃ DHR outPut, ch' = { ch with DACC_DHR := DHR, outPut := outPut } ∧
    (ch.DACC_DHR.toNat ≤ 0xfff → DHR.toNat ≤ 0xfff)

theorem Rewritten.refl (ch : DacChannel) : Rewritten ch ch := ⟨_, _, rfl, id⟩

theorem Rewritten.trans {ch ch' ch'' : DacChannel} (h : Rewritten ch ch') (h' : Rewritten ch' ch'') :
    Rewritten ch ch'' := by
  obtain ⟨DHR, outPut, rfl, hle⟩ := h
  obtain ⟨DHR', outPut', rfl, hle'⟩ := h'
  exact ⟨DHR', outPut', rfl, fun h => hle' (hle h)⟩

theorem rewritten_writeDACCDHR {value : BitVec 32} (hv : value.toNat ≤ 0xfff) (c c' : Channel) :
    Rewritten (s.chan c') ((s.writeDACCDHR env c value).chan c') := by
  have hchan : (s.writeDACCDHR env c value).chan =
      Function.update s.chan c { s.chan c with DACC_DHR := value.setWidth 16 } := by
    unfold writeDACCDHR
    dsimp only
    split <;> rfl
  rw [hchan]
  by_cases hc : c' = c
  · subst hc
    rw [Function.update_self]
    refine ⟨_, _, rfl, fun _ => ?_⟩
    rw [BitVec.toNat_setWidth, Nat.mod_eq_of_lt (by omega)]
    exact hv
  · rw [Function.update_of_ne hc]
    exact .refl _

/-- What a write does to the channels; it leaves the reference voltage. -/
structure Wrote (s t : Stm32Dac) : Prop where
  chan : ∀ c, Rewritten (s.chan c) (t.chan c)
  Vref : t.Vref = s.Vref

theorem wrote_of_eq (hchan : t.chan = s.chan) (hVref : t.Vref = s.Vref) : Wrote s t := by
  refine ⟨fun c => ?_, hVref⟩
  rw [hchan]
  exact .refl _

/-- The data registers mask the value to twelve bits or to eight. -/
theorem Wrote.writeDACCDHR (h : Wrote s t) {m : BitVec 32} (hm : m.toNat ≤ 0xfff) (v : BitVec 32)
    (c : Channel) : Wrote s (t.writeDACCDHR env c (v &&& m)) := by
  have hle : (v &&& m).toNat ≤ 0xfff := by
    rw [BitVec.toNat_and]
    exact Nat.and_le_right.trans hm
  have hVref : (t.writeDACCDHR env c (v &&& m)).Vref = t.Vref :=
    writeDACCDHR_inv (f := Stm32Dac.Vref) (fun _ _ => rfl) (fun _ _ => rfl) _
  exact ⟨fun c' => (h.chan c').trans (rewritten_writeDACCDHR hle c c'), hVref.trans h.Vref⟩

theorem wrote_write {offset : ℕ} {value : BitVec 64} (h : s.write env offset value = .ok t) :
    Wrote s t := by
  unfold write at h
  dsimp only at h
  split at h
  case h_1 =>
    unfold writeCR at h
    split_ifs at h
    cases h
    exact wrote_of_eq rfl rfl
  case h_2 =>
    cases h
    unfold writeSWTRIGR
    dsimp only
    split <;> split <;> exact wrote_of_eq rfl rfl
  case h_3 | h_4 | h_5 | h_6 | h_7 | h_8 =>
    cases h
    refine Wrote.writeDACCDHR ?_ ?_ _ _
    · exact wrote_of_eq rfl rfl
    · decide
  case h_9 | h_10 | h_11 =>
    cases h
    refine Wrote.writeDACCDHR (Wrote.writeDACCDHR ?_ ?_ _ one) ?_ _ two
    · exact wrote_of_eq rfl rfl
    · decide
    · decide
  case h_12 | h_13 => cases h
  case h_14 =>
    cases h
    exact wrote_of_eq rfl rfl

theorem addWave_chan (s : Stm32Dac) (c : Channel) : (s.addWave env c).chan =
    Function.update s.chan c { s.chan c with DOR := (s.chan c).DOR + s.generated c } := by
  unfold addWave generated
  dsimp only
  by_cases htri : extract32 s.CR c.WAVE_START 2 > 1
  · have hne : extract32 s.CR c.WAVE_START 2 ≠ 1 := by
      intro h
      rw [h] at htri
      exact absurd htri (by decide)
    rw [if_pos htri, if_neg hne, if_pos htri]
    rfl
  · rw [if_neg htri, if_neg htri]
    split
    · rfl
    · rw [BitVec.add_zero, Function.update_eq_self]

/-- A load, on the channels. -/
theorem loadDORRegistre_chan (s : Stm32Dac) (c : Channel) :
    (s.loadDORRegistre env c).chan = Function.update s.chan c
      { s.chan c with DOR := (s.chan c).DACC_DHR.setWidth 32 + s.wave c } := by
  set s₁ := s.modChan c fun ch => { ch with DOR := ch.DACC_DHR.setWidth 32 }
  have hchan : s₁.chan c = { s.chan c with DOR := (s.chan c).DACC_DHR.setWidth 32 } :=
    Function.update_self c _ _
  have hgenerated : s₁.generated c = s.generated c := by
    unfold generated
    rw [hchan]
    rfl
  have hmod : s₁.chan = Function.update s.chan c (s₁.chan c) := by
    rw [hchan]
    rfl
  change (s₁.trigger env c).chan = _
  unfold trigger wave
  by_cases ht : extract32 s.CR c.TEN_BIT 1 ≠ 0 ∧ extract32 s.SWTRIGR c.SWTRIG_BIT 1 ≠ 0
  · have ht₁ : extract32 s₁.CR c.TEN_BIT 1 ≠ 0 ∧ extract32 s₁.SWTRIGR c.SWTRIG_BIT 1 ≠ 0 := ht
    rw [if_pos ht₁, if_pos ht]
    refine (addWave_chan s₁ c).trans ?_
    rw [hgenerated, hmod, Function.update_idem, Function.update_self, hchan]
  · have ht₁ : ¬ (extract32 s₁.CR c.TEN_BIT 1 ≠ 0 ∧ extract32 s₁.SWTRIGR c.SWTRIG_BIT 1 ≠ 0) := ht
    rw [if_neg ht₁, if_neg ht, BitVec.add_zero]
    rfl

theorem actOn_expire {x : DacTimer} (hx : (s.timer x).isSome = true) (c : Channel) :
    s.actOn c (.expire x) =
      if x = c.dorTimer then { s.chan c with DOR := (s.chan c).DACC_DHR.setWidth 32 + s.wave c }
      else if x = c.triCntTimer then count (s.maxAmplitude c) (s.chan c)
      else s.chan c := by
  simp [actOn, Loads, Counts, hx]

/-- The callback of a pending timer, on a channel. -/
theorem callback_chan {x : DacTimer} (hx : (s.timer x).isSome = true)
    (h : callback env { s with timer := Function.update s.timer x none } x = .ok t) (c : Channel) :
    Rewritten (s.actOn c (.expire x)) (t.chan c) := by
  rw [actOn_expire hx]
  cases x with
  | DOR1 =>
    cases h
    rw [loadDOR1Registre, loadDORRegistre_chan]
    cases c <;> exact .refl _
  | DOR2 =>
    cases h
    rw [loadDOR2Registre, loadDORRegistre_chan]
    cases c <;> exact .refl _
  | TRI_CNT1 | TRI_CNT2 =>
    cases h
    cases c <;> exact .refl _
  | CONV1 | CONV2 =>
    obtain ⟨-, rfl⟩ := convDACC_ok h
    cases c <;> exact ⟨_, _, rfl, id⟩
  | LFSR =>
    cases h
    cases c <;> exact .refl _

/-- **What an operation does to a channel.** -/
theorem step_chan {o : DacEnv × Op} (h : step s o = .ok t) (c : Channel) :
    Rewritten (s.actOn c o.2) (t.chan c) := by
  obtain ⟨env, o⟩ := o
  cases o with
  | read offset size =>
    cases h
    exact .refl _
  | write offset value size => exact (wrote_write h).chan c
  | clkIrq =>
    obtain ⟨clkFreq, -, -, rfl⟩ := clkIrqHandler_ok h
    exact .refl _
  | expire x =>
    change s.expire env x = .ok t at h
    unfold expire at h
    cases hx : (s.timer x).isSome with
    | false =>
      rw [hx] at h
      cases h
      have hno : s.actOn c (.expire x) = s.chan c := by
        simp [actOn, Loads, Counts, hx]
      rw [hno]
      exact .refl _
    | true =>
      rw [if_pos hx] at h
      exact callback_chan hx h c
  | reset =>
    cases h
    exact ⟨_, _, rfl, id⟩

theorem actOn_DACC_DHR (s : Stm32Dac) (c : Channel) (o : Op) :
    (s.actOn c o).DACC_DHR = (s.chan c).DACC_DHR := by
  unfold actOn
  split
  · rfl
  split
  · rfl
  cases o <;> rfl

theorem step_DOR {o : DacEnv × Op} (h : step s o = .ok t) (c : Channel) : (t.chan c).DOR =
    if s.Loads c o.2 then (s.chan c).DACC_DHR.setWidth 32 + s.wave c else (s.chan c).DOR := by
  obtain ⟨_, _, ht, -⟩ := step_chan h c
  rw [ht]
  unfold actOn
  split
  · rfl
  split
  · rfl
  cases o.2 <;> rfl

/-- A condition on both channels can be evaluated. -/
instance {p : Channel → Prop} [DecidablePred p] : Decidable (∀ c, p c) :=
  decidable_of_iff (p one ∧ p two)
    ⟨fun h c => by cases c with | one => exact h.1 | two => exact h.2, fun h => ⟨h one, h two⟩⟩

end Stm32Dac

open Stm32Dac

/-! ## The triangle counters -/

namespace Stm32Dac

variable {s t : Stm32Dac} {c : Channel} {ch : DacChannel} {m : BitVec 16}

theorem toNat_MAMP_le (CR : BitVec 32) (c : Channel) : (MAMP CR c).toNat ≤ 11 := by
  unfold MAMP
  dsimp only
  split
  case isTrue => decide
  case isFalse h => exact Nat.le_of_not_lt h

theorem toNat_maxAmplitude (s : Stm32Dac) (c : Channel) :
    (s.maxAmplitude c).toNat = 2 ^ ((MAMP s.CR c).toNat + 1) - 1 := by
  have hall : ∀ k ≤ 11, (1#16 <<< (k + 1) - 1 : BitVec 16).toNat = 2 ^ (k + 1) - 1 := by decide
  exact hall _ (toNat_MAMP_le s.CR c)

/-- The amplitude is between `1` and `4095`. -/
theorem toNat_maxAmplitude_le (s : Stm32Dac) (c : Channel) : (s.maxAmplitude c).toNat ≤ 4095 := by
  rw [toNat_maxAmplitude]
  exact Nat.sub_le_sub_right (Nat.pow_le_pow_right (by decide) (Nat.succ_le_succ (toNat_MAMP_le s.CR c))) 1

theorem count_up (hinc : ch.incCnt = true) (hlt : ch.TRI_CNT.toNat + 1 < 2 ^ 16) :
    (count m ch).TRI_CNT.toNat = ch.TRI_CNT.toNat + 1 := by
  simp only [count, hinc, if_true]
  rw [BitVec.toNat_add]
  exact Nat.mod_eq_of_lt hlt

theorem count_down (hinc : ch.incCnt = false) (hpos : 0 < ch.TRI_CNT.toNat) :
    (count m ch).TRI_CNT.toNat = ch.TRI_CNT.toNat - 1 := by
  simp only [count, hinc]
  exact BitVec.toNat_sub_of_le hpos

/-- A counter that goes down is not at zero. -/
theorem count_pos (h : (count m ch).incCnt = false) : 0 < (count m ch).TRI_CNT.toNat := by
  unfold count at h ⊢
  dsimp only at h ⊢
  generalize (if ch.incCnt then ch.TRI_CNT + 1 else ch.TRI_CNT - 1) = n at h ⊢
  split at h
  · cases h
  · rename_i hpos
    exact Nat.lt_of_not_le hpos

/-- A counter that goes up is below the amplitude. -/
theorem count_lt (h : (count m ch).incCnt = true) :
    (count m ch).TRI_CNT.toNat = 0 ∨ (count m ch).TRI_CNT.toNat < m.toNat := by
  unfold count at h ⊢
  dsimp only at h ⊢
  generalize (if ch.incCnt then ch.TRI_CNT + 1 else ch.TRI_CNT - 1) = n at h ⊢
  split at h
  · rename_i hzero
    exact .inl (Nat.le_zero.1 hzero)
  · split at h
    · cases h
    · rename_i hlt
      exact .inr (Nat.lt_of_not_le hlt)

theorem not_loads_of_counts {o : Op} (hk : s.Counts c o) : ¬ s.Loads c o := by
  intro hl
  cases o with
  | expire x =>
    obtain ⟨rfl, -⟩ := hk
    obtain ⟨hx, -⟩ := hl
    cases c <;> cases hx
  | _ => exact hk

theorem step_counts {o : DacEnv × Op} (hk : s.Counts c o.2) (h : step s o = .ok t) :
    (t.chan c).TRI_CNT = (count (s.maxAmplitude c) (s.chan c)).TRI_CNT ∧
      (t.chan c).incCnt = (count (s.maxAmplitude c) (s.chan c)).incCnt := by
  obtain ⟨_, _, ht, -⟩ := step_chan h c
  rw [ht]
  unfold actOn
  rw [if_neg (not_loads_of_counts hk), if_pos hk]
  exact ⟨rfl, rfl⟩

/-- Nothing else moves a counter, and only a reset turns it. -/
theorem step_not_counts {o : DacEnv × Op} (hk : ¬ s.Counts c o.2) (h : step s o = .ok t) :
    (t.chan c).TRI_CNT = (s.chan c).TRI_CNT ∧
      ((t.chan c).incCnt = (s.chan c).incCnt ∨ o.2 = .reset ∧ (t.chan c).incCnt = true) := by
  obtain ⟨_, _, ht, -⟩ := step_chan h c
  obtain ⟨env, o⟩ := o
  rw [ht]
  unfold actOn
  rw [if_neg hk]
  split
  · exact ⟨rfl, .inl rfl⟩
  · cases o with
    | reset => exact ⟨rfl, .inr ⟨rfl, rfl⟩⟩
    | _ => exact ⟨rfl, .inl rfl⟩

/-- A counter that goes down is not at zero. -/
def Turned (s : Stm32Dac) : Prop := ∀ c, (s.chan c).incCnt = false → 0 < (s.chan c).TRI_CNT.toNat

theorem Turned.step {o : DacEnv × Op} (hs : s.Turned) (h : step s o = .ok t) : t.Turned := by
  intro c hinc
  by_cases hk : s.Counts c o.2
  · obtain ⟨hT, hI⟩ := step_counts hk h
    rw [hI] at hinc
    rw [hT]
    exact count_pos hinc
  · obtain ⟨hT, hI⟩ := step_not_counts hk h
    rw [hT]
    rcases hI with hI | ⟨-, hI⟩
    · exact hs c (hI.symm.trans hinc)
    · rw [hI] at hinc
      cases hinc

theorem turned_init (periph : Periph) : (init periph).Turned := fun _ h => by cases h

/-- A counter that the operation increments is below the top. -/
def CountsBelow (s : Stm32Dac) (o : DacEnv × Op) : Prop :=
  ∀ c, s.Counts c o.2 → (s.chan c).incCnt = true → (s.chan c).TRI_CNT.toNat < 4095

/-- The update of a counter does not leave the 16 bits of its type. -/
def NoWrap (s : Stm32Dac) (o : DacEnv × Op) : Prop :=
  ∀ c, s.Counts c o.2 → if (s.chan c).incCnt then (s.chan c).TRI_CNT.toNat + 1 < 2 ^ 16
    else 0 < (s.chan c).TRI_CNT.toNat

instance (s : Stm32Dac) (o : DacEnv × Op) : Decidable (s.CountsBelow o) :=
  inferInstanceAs (Decidable (∀ _, _))

/-- The counters stay up to `top` in a step exactly if those that it increments are below. -/
theorem step_tri_iff {top : ℕ} {o : DacEnv × Op} (hs : s.Turned) (hle : ∀ c, (s.chan c).TRI_CNT.toNat ≤ top)
    (htop : top + 1 < 2 ^ 16) (h : step s o = .ok t) : (∀ c, (t.chan c).TRI_CNT.toNat ≤ top) ↔
      ∀ c, s.Counts c o.2 → (s.chan c).incCnt = true → (s.chan c).TRI_CNT.toNat < top := by
  refine forall_congr' fun c => ?_
  have hc := hle c
  by_cases hk : s.Counts c o.2
  · rw [(step_counts hk h).1]
    cases hinc : (s.chan c).incCnt with
    | true =>
      rw [count_up hinc (by omega)]
      exact ⟨fun h _ _ => h, fun h => h hk rfl⟩
    | false =>
      rw [count_down hinc (hs c hinc)]
      exact iff_of_true (by omega) fun _ h => by cases h
  · rw [(step_not_counts hk h).1]
    exact iff_of_true hc fun h => absurd h hk

theorem noWrap {o : DacEnv × Op} (hs : s.Turned) (hle : ∀ c, (s.chan c).TRI_CNT.toNat ≤ 4095) :
    s.NoWrap o := by
  intro c _
  have hc := hle c
  split
  · omega
  · rename_i hinc
    exact hs c (Bool.eq_false_iff.2 hinc)

/-- A counter that goes up is below `top`. -/
def Climbing (top : ℕ) (s : Stm32Dac) : Prop :=
  ∀ c, (s.chan c).incCnt = true → (s.chan c).TRI_CNT.toNat < top

theorem Climbing.step {top : ℕ} {o : DacEnv × Op} (hs : s.Climbing top) (hpos : 0 < top)
    (hmax : ∀ c, (s.maxAmplitude c).toNat ≤ top)
    (hreset : o.2 = .reset → ∀ c, (s.chan c).TRI_CNT.toNat < top) (h : step s o = .ok t) : t.Climbing top := by
  intro c hinc
  by_cases hk : s.Counts c o.2
  · obtain ⟨hT, hI⟩ := step_counts hk h
    rw [hI] at hinc
    have hmax := hmax c
    rw [hT]
    rcases count_lt hinc with h0 | hlt <;> omega
  · obtain ⟨hT, hI⟩ := step_not_counts hk h
    rw [hT]
    rcases hI with hI | ⟨ho, -⟩
    · exact hs c (hI.symm.trans hinc)
    · exact hreset ho c

/-- In all states of the run the counters are in their range, and no update wraps. -/
def TriangleBounded (s : Stm32Dac) (l : List (DacEnv × Op)) : Prop :=
  (∀ t, Visits step s l t → ∀ c, (t.chan c).TRI_CNT.toNat ≤ 4095) ∧
    ∀ t o, Takes step s l t o → t.NoWrap o

end Stm32Dac

/-- **When the counters stay in their range throughout a run:** whenever one is incremented, it is
    below the top.  That is so if no reset finds a counter at the top. -/
theorem triangle_iff {periph : Periph} {l : List (DacEnv × Stm32Dac.Op)} {u : Stm32Dac}
    (h : run Stm32Dac.step (Stm32Dac.init periph) l = .ok u) :
    (TriangleBounded (Stm32Dac.init periph) l ↔
      ∀ t o, Takes Stm32Dac.step (Stm32Dac.init periph) l t o → t.CountsBelow o) ∧
    ((∀ t o, Takes Stm32Dac.step (Stm32Dac.init periph) l t o → o.2 = .reset →
        ∀ c, (t.chan c).TRI_CNT.toNat < 4095) →
      TriangleBounded (Stm32Dac.init periph) l) := by
  have hvisits := visits_iff_takes (I := Turned) (P := fun t => ∀ c, (t.chan c).TRI_CNT.toNat ≤ 4095)
    (C := CountsBelow) (fun t o u ht hu => ht.step hu) (fun t o u ht hle hu => step_tri_iff ht hle (by decide) hu)
    (turned_init periph) (fun _ => Nat.zero_le 4095) h
  have hiff : TriangleBounded (Stm32Dac.init periph) l ↔
      ∀ t o, Takes Stm32Dac.step (Stm32Dac.init periph) l t o → t.CountsBelow o := by
    refine ⟨fun hall => hvisits.1 hall.1, fun hbelow => ⟨hvisits.2 hbelow, ?_⟩⟩
    rintro t o ⟨l₁, l₂, hl, hr⟩
    exact noWrap (run_inv (I := Turned) (fun t o u ht hu => ht.step hu) (turned_init periph) hr)
      (hvisits.2 hbelow t ⟨l₁, o :: l₂, hl, hr⟩)
  refine ⟨hiff, fun hreset => hiff.2 ?_⟩
  rintro t o ⟨l₁, l₂, rfl, hr⟩ c - hinc
  refine history_inv (P := fun _ t => t.Climbing 4095)
    (C := fun t o => o.2 = .reset → ∀ c, (t.chan c).TRI_CNT.toNat < 4095)
    (fun _ t o u ht ho hu => ht.step (by decide) t.toNat_maxAmplitude_le ho hu) ?_
    (fun t' o' h' => hreset t' o' (h'.append _)) hr c hinc
  exact fun _ _ => Nat.zero_lt_succ 4094

/-! ## A reset at the top -/

namespace Stm32Dac

variable {s t : Stm32Dac} {c : Channel} {env : DacEnv} {ch : DacChannel} {m : BitVec 16}

/-- A trigger of the first channel, and the update of its counter. -/
def triangleStep (rcc : Stm32Rcc) : List (DacEnv × Op) :=
  [.write 0x04 1 4, .expire .DOR1, .expire .TRI_CNT1].map (analogPins rcc, ·)

/-- The triangle with the largest amplitude, after `n` triggers. -/
def climb (rcc : Stm32Rcc) (n : ℕ) : List (DacEnv × Op) :=
  (analogPins rcc, .write 0x00 0xb84 4) :: (List.replicate n (triangleStep rcc)).flatten

theorem loadDORRegistre_CR (s : Stm32Dac) (c : Channel) : (s.loadDORRegistre env c).CR = s.CR :=
  trigger_inv (f := Stm32Dac.CR) (fun _ => rfl) (fun _ => rfl) fun _ => rfl

/-- A triggered load of a triangle starts the timer of its counter. -/
theorem loadDORRegistre_triCntTimer
    (ht : extract32 s.CR c.TEN_BIT 1 ≠ 0 ∧ extract32 s.SWTRIGR c.SWTRIG_BIT 1 ≠ 0)
    (hw : extract32 s.CR c.WAVE_START 2 > 1) (hne : extract32 s.CR c.WAVE_START 2 ≠ 1) :
    ((s.loadDORRegistre env c).timer c.triCntTimer).isSome = true := by
  have hwave : ∀ s : Stm32Dac, extract32 s.CR c.WAVE_START 2 > 1 → extract32 s.CR c.WAVE_START 2 ≠ 1 →
      ((s.addWave env c).timer c.triCntTimer).isSome = true := by
    intro s hw hne
    unfold addWave
    dsimp only
    rw [if_pos hw, if_neg hne, addTriangle, arm]
    dsimp only
    rw [Function.update_self]
    rfl
  have htrigger : ∀ s : Stm32Dac,
      extract32 s.CR c.TEN_BIT 1 ≠ 0 ∧ extract32 s.SWTRIGR c.SWTRIG_BIT 1 ≠ 0 →
      extract32 s.CR c.WAVE_START 2 > 1 → extract32 s.CR c.WAVE_START 2 ≠ 1 →
      ((s.trigger env c).timer c.triCntTimer).isSome = true := by
    intro s ht hw hne
    rw [trigger, if_pos ht]
    exact hwave s hw hne
  have hconv : c.triCntTimer ≠ c.convTimer := by cases c <;> decide
  unfold loadDORRegistre arm
  dsimp only
  rw [Function.update_of_ne hconv]
  exact htrigger _ ht hw hne

/-- One trigger of the triangle, whatever was pending. -/
theorem run_triangleStep (hCR : s.CR = 0xb84) (rcc : Stm32Rcc) :
    ∃ t, run step s (triangleStep rcc) = .ok t ∧ t.CR = 0xb84 ∧
      (t.chan one).TRI_CNT = (count 4095 (s.chan one)).TRI_CNT ∧
      (t.chan one).incCnt = (count 4095 (s.chan one)).incCnt := by
  set env := analogPins rcc
  set s₁ := s.writeSWTRIGR env 1
  have hload : s₁.expire env .DOR1 =
      .ok (loadDORRegistre env { s₁ with timer := Function.update s₁.timer .DOR1 none } one) := rfl
  set s₂ := loadDORRegistre env { s₁ with timer := Function.update s₁.timer .DOR1 none } one with hs₂
  have hCR₁ : s₁.CR = 0xb84 := hCR
  have hCR₂ : s₂.CR = 0xb84 := (loadDORRegistre_CR _ _).trans hCR₁
  have hpending : (s₂.timer .TRI_CNT1).isSome = true := by
    refine loadDORRegistre_triCntTimer (c := one) ⟨?_, ?_⟩ ?_ ?_
    · change extract32 s₁.CR 2 1 ≠ 0
      rw [hCR₁]
      decide
    · change extract32 (1 &&& 3) 0 1 ≠ 0
      decide
    · change extract32 s₁.CR 6 2 > 1
      rw [hCR₁]
      decide
    · change extract32 s₁.CR 6 2 ≠ 1
      rw [hCR₁]
      decide
  have hchan : s₂.chan one = { s.chan one with
      DOR := (s.chan one).DACC_DHR.setWidth 32 + s₁.wave one } := by
    rw [hs₂, loadDORRegistre_chan, Function.update_self]
    rfl
  have hmax : s₂.maxAmplitude one = 4095 := by
    rw [maxAmplitude, hCR₂]
    decide
  have hcount : step s₂ (env, .expire .TRI_CNT1) =
      .ok (triangularCnt1Update { s₂ with timer := Function.update s₂.timer .TRI_CNT1 none }) :=
    if_pos hpending
  refine ⟨_, run_cons_ok.2 ⟨s₁, rfl, run_cons_ok.2 ⟨s₂, hload, run_cons_ok.2 ⟨_, hcount, rfl⟩⟩⟩, hCR₂, ?_⟩
  have hcounts : s₂.Counts one (.expire .TRI_CNT1) := ⟨rfl, hpending⟩
  have hupdate := step_counts (o := (env, .expire .TRI_CNT1)) hcounts hcount
  rw [hmax, hchan] at hupdate
  exact hupdate

/-- Below the amplitude a counter goes on upwards. -/
theorem count_incCnt (hinc : ch.incCnt = true) (hlt : ch.TRI_CNT.toNat + 1 < m.toNat) :
    (count m ch).incCnt = true := by
  have hup : (ch.TRI_CNT + 1).toNat = ch.TRI_CNT.toNat + 1 := by
    rw [BitVec.toNat_add]
    exact Nat.mod_eq_of_lt (hlt.trans m.isLt)
  have hne : ¬ ch.TRI_CNT + 1 ≥ m := by
    rw [ge_iff_le, BitVec.le_def, hup]
    omega
  simp only [count, hinc, if_true, if_neg hne, ite_self]

/-- The triangle after `n` triggers. -/
theorem run_climb (rcc : Stm32Rcc) {n : ℕ} (hn : n ≤ 4095) :
    ∃ t, run step (init .DAC) (climb rcc n) = .ok t ∧ t.CR = 0xb84 ∧ (t.chan one).TRI_CNT.toNat = n ∧
      (n < 4095 → (t.chan one).incCnt = true) := by
  induction n with
  | zero => exact ⟨_, rfl, rfl, rfl, fun _ => rfl⟩
  | succ n ih =>
    obtain ⟨t, ht, hCR, hcnt, hinc⟩ := ih (by omega)
    have hup := hinc (by omega)
    obtain ⟨u, hu, hCRu, hcntu, hincu⟩ := run_triangleStep hCR rcc
    have hlist : climb rcc (n + 1) = climb rcc n ++ triangleStep rcc := by
      rw [climb, climb, List.replicate_succ', List.flatten_append, List.flatten_singleton, List.cons_append]
    refine ⟨u, ?_, hCRu, ?_, fun hlt => ?_⟩
    · rw [hlist]
      exact run_append_ok.2 ⟨t, ht, hu⟩
    · rw [hcntu, count_up hup (by omega), hcnt]
    · rw [hincu]
      exact count_incCnt hup (by rw [hcnt]; exact hlt)

end Stm32Dac

/-- A reset in the middle of the triangle. -/
theorem triangle_bounded_reset : ∃ rcc u, Stm32Rcc.Reachable zeroHost 8000000 32768 rcc ∧
    run Stm32Dac.step (Stm32Dac.init .DAC)
      (climb rcc 1 ++ (analogPins rcc, .reset) :: triangleStep rcc) = .ok u ∧
    (u.chan one).TRI_CNT = 2 ∧
    TriangleBounded (Stm32Dac.init .DAC) (climb rcc 1 ++ (analogPins rcc, .reset) :: triangleStep rcc) := by
  have hclocks : Post (fun rcc =>
      Meets Stm32Dac.step CountsBelow (Stm32Dac.init .DAC)
        (climb rcc 1 ++ (analogPins rcc, .reset) :: triangleStep rcc) ∧
      Post (fun u => (u.chan one).TRI_CNT = 2) (fun _ => False) (run Stm32Dac.step (Stm32Dac.init .DAC)
        (climb rcc 1 ++ (analogPins rcc, .reset) :: triangleStep rcc)))
      (fun _ => False) clocks := by
    decide +kernel
  obtain ⟨rcc, hrcc, hbelow, hrun⟩ := post_ok.1 hclocks
  obtain ⟨u, hu, hcnt⟩ := post_ok.1 hrun
  exact ⟨rcc, u, clocks_ok hrcc, hu, hcnt, (triangle_iff hu).1.2 hbelow.takes⟩

/-- A reset at the top of the triangle: the next trigger leaves the range. -/
theorem not_triangle_bounded_reset : ∃ rcc u, Stm32Rcc.Reachable zeroHost 8000000 32768 rcc ∧
    run Stm32Dac.step (Stm32Dac.init .DAC)
      (climb rcc 4095 ++ (analogPins rcc, .reset) :: triangleStep rcc) = .ok u ∧
    (u.chan one).TRI_CNT.toNat = 4096 := by
  obtain ⟨rcc, hrcc⟩ := Stm32Rcc.exists_reachable zeroHost 8000000 32768
  obtain ⟨t, ht, hCR, hcnt, -⟩ := run_climb rcc le_rfl
  obtain ⟨u, hu, -, hcntu, -⟩ := run_triangleStep (s := t.reset) hCR rcc
  refine ⟨rcc, u, hrcc, run_append_ok.2 ⟨t, ht, run_cons_ok.2 ⟨_, rfl, hu⟩⟩, ?_⟩
  have htop : (t.reset.chan one).TRI_CNT.toNat = 4095 := hcnt
  rw [hcntu, count_up rfl (by omega), htop]

/-! ## The output registers -/

namespace Stm32Dac

variable {env : DacEnv} {s t : Stm32Dac} {c : Channel}

/-- The number that a conversion prints for the value `v` of the output register. -/
def millivolts (Vref v : BitVec 32) : BitVec 32 := Vref * (v &&& 0xfff) / 4095

/-- A conversion prints the value of the output register. -/
theorem step_outPut {o : DacEnv × Op} (ho : o.2 = .expire c.convTimer) (hpending : (s.timer c.convTimer).isSome = true)
    (h : step s o = .ok t) : (t.chan c).outPut = (s.chan c).outPut ++ [millivolts s.Vref (s.chan c).DOR] := by
  obtain ⟨env, o⟩ := o
  obtain rfl : o = .expire c.convTimer := ho
  change s.expire env c.convTimer = .ok t at h
  rw [expire, if_pos hpending] at h
  cases c with
  | one | two =>
    obtain ⟨-, rfl⟩ := convDACC_ok h
    exact congrArg DacChannel.outPut (Function.update_self _ _ s.chan)

theorem toNat_wave_lt (s : Stm32Dac) (c : Channel) : (s.wave c).toNat < 2 ^ 16 := by
  have hzero : (0#32).toNat < 2 ^ 16 := by decide
  unfold wave generated
  split
  · split
    · rw [BitVec.toNat_setWidth]
      exact (Nat.mod_le _ _).trans_lt (BitVec.isLt _)
    split
    · rw [BitVec.toNat_and, BitVec.toNat_setWidth]
      exact (Nat.and_le_left.trans (Nat.mod_le _ _)).trans_lt (BitVec.isLt _)
    · exact hzero
  · exact hzero

/-- The sum of a load does not exceed 32 bits. -/
theorem toNat_add_wave (s : Stm32Dac) (c : Channel) :
    ((s.chan c).DACC_DHR.setWidth 32 + s.wave c).toNat =
      (s.chan c).DACC_DHR.toNat + (s.wave c).toNat := by
  have hdhr := (s.chan c).DACC_DHR.isLt
  have hwave := s.toNat_wave_lt c
  rw [BitVec.toNat_add, BitVec.toNat_setWidth]
  omega

/-- A conversion of twelve bits at the reference voltage of a reset. -/
theorem toNat_millivolts {v : BitVec 32} (hv : v.toNat ≤ 0xfff) :
    (millivolts 2400 v).toNat = 2400 * v.toNat / 4095 := by
  have hmask : (v &&& 0xfff).toNat = v.toNat := by
    rw [BitVec.toNat_and, show (0xfff : BitVec 32).toNat = 2 ^ 12 - 1 from rfl,
      Nat.and_two_pow_sub_one_eq_mod, Nat.mod_eq_of_lt (by omega)]
  rw [millivolts, BitVec.toNat_udiv, BitVec.toNat_mul, hmask, show (2400 : BitVec 32).toNat = 2400 from rfl,
    show (4095 : BitVec 32).toNat = 4095 from rfl, Nat.mod_eq_of_lt (by omega)]

/-- The data have twelve bits, and the reference voltage is that of a reset. -/
structure Fed (s : Stm32Dac) : Prop where
  DHR : ∀ c, (s.chan c).DACC_DHR.toNat ≤ 0xfff
  Vref : s.Vref = 2400

theorem loadDORRegistre_Vref (s : Stm32Dac) (c : Channel) :
    (s.loadDORRegistre env c).Vref = s.Vref :=
  trigger_inv (f := Stm32Dac.Vref) (fun _ => rfl) (fun _ => rfl) fun _ => rfl

theorem expire_Vref {x : DacTimer} (h : s.expire env x = .ok t) : t.Vref = s.Vref := by
  unfold expire at h
  split at h
  · cases x with
    | DOR1 | DOR2 =>
      cases h
      exact loadDORRegistre_Vref _ _
    | TRI_CNT1 | TRI_CNT2 | LFSR =>
      cases h
      rfl
    | CONV1 | CONV2 =>
      obtain ⟨-, rfl⟩ := convDACC_ok h
      rfl
  · cases h
    rfl

theorem Fed.step {o : DacEnv × Op} (hs : s.Fed) (h : step s o = .ok t) : t.Fed := by
  refine ⟨fun c => ?_, ?_⟩
  · obtain ⟨_, _, ht, hle⟩ := step_chan h c
    rw [actOn_DACC_DHR] at hle
    rw [ht]
    exact hle (hs.DHR c)
  · obtain ⟨env, o⟩ := o
    cases o with
    | read offset size =>
      cases h
      exact hs.Vref
    | write offset value size => exact (wrote_write h).Vref.trans hs.Vref
    | clkIrq =>
      obtain ⟨_, -, -, rfl⟩ := clkIrqHandler_ok h
      exact hs.Vref
    | expire x => exact (expire_Vref h).trans hs.Vref
    | reset =>
      cases h
      rfl

theorem fed_init (periph : Periph) : (init periph).Fed := ⟨fun _ => Nat.zero_le 0xfff, rfl⟩

/-- The load puts data and wave into twelve bits. -/
def SumFits (s : Stm32Dac) (o : DacEnv × Op) : Prop :=
  ∀ c, s.Loads c o.2 → (s.chan c).DACC_DHR.toNat + (s.wave c).toNat ≤ 0xfff

theorem step_dor_iff {o : DacEnv × Op} (hdor : ∀ c, (s.chan c).DOR.toNat ≤ 0xfff)
    (h : step s o = .ok t) : (∀ c, (t.chan c).DOR.toNat ≤ 0xfff) ↔ s.SumFits o := by
  refine forall_congr' fun c => ?_
  rw [step_DOR h c]
  split
  · rename_i hl
    rw [toNat_add_wave]
    exact ⟨fun h _ => h, fun h => h hl⟩
  · rename_i hl
    exact iff_of_true (hdor c) fun h => absurd h hl

/-- A wave does not pass the top of the counter and of the noise. -/
theorem toNat_wave_le {top : ℕ} (htri : (s.chan c).TRI_CNT.toNat ≤ top)
    (hmask : 2 ^ ((MAMP s.CR c).toNat + 1) - 1 ≤ top) : (s.wave c).toNat ≤ top := by
  have hnoise : ∀ k ≤ 11, (1#32 <<< (k + 1) - 1 : BitVec 32).toNat = 2 ^ (k + 1) - 1 := by decide
  unfold wave generated
  split
  · split
    · rw [BitVec.toNat_setWidth_of_le (by decide)]
      exact htri
    split
    · rw [BitVec.toNat_and, hnoise _ (toNat_MAMP_le s.CR c)]
      exact Nat.and_le_right.trans hmask
    · exact Nat.zero_le top
  · exact Nat.zero_le top

/-- The registers that the guest writes leave room for the waves: the amplitude is up to `A`, the data are below the
    top by the largest wave of it, and there is no reset. -/
def LeavesRoom (A : ℕ) (s : Stm32Dac) (o : DacEnv × Op) : Prop :=
  o.2 ≠ .reset ∧ ∀ c, (MAMP s.CR c).toNat ≤ A ∧ (s.chan c).DACC_DHR.toNat + 2 ^ (A + 1) ≤ 0x1000

instance (A : ℕ) (s : Stm32Dac) (o : DacEnv × Op) : Decidable (s.LeavesRoom A o) :=
  inferInstanceAs (Decidable (_ ∧ ∀ _, _))

/-- The counters swing between zero and `top`. -/
structure Swings (top : ℕ) (s : Stm32Dac) : Prop where
  turned : s.Turned
  climbing : s.Climbing top
  le : ∀ c, (s.chan c).TRI_CNT.toNat ≤ top

theorem LeavesRoom.top_lt {A : ℕ} {o : DacEnv × Op} (ho : s.LeavesRoom A o) : 2 ^ (A + 1) - 1 + 1 < 2 ^ 16 := by
  have hroom := (ho.2 one).2
  omega

theorem LeavesRoom.amplitude_le {A : ℕ} {o : DacEnv × Op} (ho : s.LeavesRoom A o) (c : Channel) :
    2 ^ ((MAMP s.CR c).toNat + 1) - 1 ≤ 2 ^ (A + 1) - 1 :=
  Nat.sub_le_sub_right (Nat.pow_le_pow_right (by decide) (Nat.succ_le_succ (ho.2 c).1)) 1

theorem Swings.step {A : ℕ} {o : DacEnv × Op} (hs : s.Swings (2 ^ (A + 1) - 1)) (ho : s.LeavesRoom A o)
    (h : step s o = .ok t) : t.Swings (2 ^ (A + 1) - 1) := by
  have hpos : 0 < 2 ^ (A + 1) - 1 := Nat.sub_pos_of_lt (Nat.one_lt_two_pow A.succ_ne_zero)
  refine ⟨hs.turned.step h, hs.climbing.step hpos (fun c => ?_) (fun hreset => absurd hreset ho.1) h,
    (step_tri_iff hs.turned hs.le ho.top_lt h).2 fun c _ => hs.climbing c⟩
  rw [toNat_maxAmplitude]
  exact ho.amplitude_le c

theorem swings_init (A : ℕ) (periph : Periph) : (init periph).Swings (2 ^ (A + 1) - 1) :=
  ⟨turned_init periph, fun _ _ => Nat.sub_pos_of_lt (Nat.one_lt_two_pow A.succ_ne_zero), fun _ => Nat.zero_le _⟩

theorem Swings.sumFits {A : ℕ} {o : DacEnv × Op} (hs : s.Swings (2 ^ (A + 1) - 1)) (ho : s.LeavesRoom A o) :
    s.SumFits o := by
  intro c _
  have hwave := toNat_wave_le (hs.le c) (ho.amplitude_le c)
  have hroom := (ho.2 c).2
  have hpos : 0 < 2 ^ (A + 1) := Nat.two_pow_pos (A + 1)
  omega

/-- In all states of the run the output registers have twelve bits, each load saturates, and no wave lowers the
    output. -/
def DorRange (s : Stm32Dac) (l : List (DacEnv × Op)) : Prop :=
  (∀ t, Visits step s l t → ∀ c, (t.chan c).DOR.toNat ≤ 0xfff) ∧
    ∀ t o t', Takes step s l t o → step t o = .ok t' → ∀ c, t.Loads c o.2 →
      (t'.chan c).DOR.toNat = min ((t.chan c).DACC_DHR.toNat + (t.wave c).toNat) 0xfff ∧
      (millivolts t'.Vref ((t.chan c).DACC_DHR.setWidth 32)).toNat ≤ (millivolts t'.Vref (t'.chan c).DOR).toNat

end Stm32Dac

/-- **When the output registers have twelve bits throughout a run,** each load saturates, and no
    wave lowers the output.  That is so if the guest leaves room for the waves.  A conversion prints the low twelve
    bits in any case. -/
theorem dor_range_iff {periph : Periph} {l : List (DacEnv × Stm32Dac.Op)} {u : Stm32Dac}
    (h : run Stm32Dac.step (Stm32Dac.init periph) l = .ok u) :
    (DorRange (Stm32Dac.init periph) l ↔
      ∀ t o, Takes Stm32Dac.step (Stm32Dac.init periph) l t o →
        ∀ c, t.Loads c o.2 → (t.chan c).DACC_DHR.toNat + (t.wave c).toNat ≤ 0xfff) ∧
    (∀ A, (∀ t o, Takes Stm32Dac.step (Stm32Dac.init periph) l t o → t.LeavesRoom A o) →
      DorRange (Stm32Dac.init periph) l) ∧
    ∀ t o t', Takes Stm32Dac.step (Stm32Dac.init periph) l t o → Stm32Dac.step t o = .ok t' →
      ∀ c, o.2 = .expire c.convTimer → (t.timer c.convTimer).isSome = true →
        (t'.chan c).outPut = (t.chan c).outPut ++ [millivolts t.Vref (t.chan c).DOR] := by
  have hvisits := visits_iff_takes (I := Fed) (P := fun t => ∀ c, (t.chan c).DOR.toNat ≤ 0xfff)
    (C := SumFits) (fun t o u ht hu => ht.step hu) (fun t o u ht hdor hu => step_dor_iff hdor hu)
    (fed_init periph) (fun _ => Nat.zero_le 0xfff) h
  have hiff : DorRange (Stm32Dac.init periph) l ↔
      ∀ t o, Takes Stm32Dac.step (Stm32Dac.init periph) l t o → t.SumFits o := by
    constructor
    · intro hall
      exact hvisits.1 hall.1
    · intro hsum
      refine ⟨hvisits.2 hsum, fun t o t' hto ht' c hl => ?_⟩
      have hle := hsum t o hto c hl
      have hfed : t.Fed := by
        obtain ⟨l₁, l₂, -, hr⟩ := hto
        exact run_inv (I := Fed) (fun t o u ht hu => ht.step hu) (fed_init periph) hr
      have hdor : (t'.chan c).DOR.toNat = (t.chan c).DACC_DHR.toNat + (t.wave c).toNat := by
        rw [step_DOR ht' c, if_pos hl, toNat_add_wave]
      have hdhr : ((t.chan c).DACC_DHR.setWidth 32).toNat = (t.chan c).DACC_DHR.toNat :=
        BitVec.toNat_setWidth_of_le (by decide)
      refine ⟨hdor.trans (min_eq_left hle).symm, ?_⟩
      rw [(hfed.step ht').Vref, toNat_millivolts (by omega), toNat_millivolts (by omega), hdor, hdhr]
      exact Nat.div_le_div_right (Nat.mul_le_mul_left 2400 (Nat.le_add_right _ _))
  refine ⟨hiff, fun A hroom => hiff.2 ?_, fun t o t' _ ht' c ho hpending => step_outPut ho hpending ht'⟩
  intro t o hto
  have hto' := hroom t o hto
  obtain ⟨l₁, l₂, rfl, hr⟩ := hto
  have hswings : t.Swings (2 ^ (A + 1) - 1) :=
    history_inv (P := fun _ t => t.Swings (2 ^ (A + 1) - 1)) (C := LeavesRoom A) (fun _ t o u ht ho hu => ht.step ho hu)
      (swings_init A periph) (fun t' o' h' => hroom t' o' (h'.append _)) hr
  exact hswings.sumFits hto'

namespace Stm32Dac

/-- Two triggers of a triangle on top of `data`, and the conversion. -/
def raisedTriangle (data : BitVec 64) (rcc : Stm32Rcc) : List (DacEnv × Op) :=
  [.write 0x08 data 4, .write 0x00 0x84 4, .write 0x04 1 4, .expire .DOR1, .expire .TRI_CNT1,
    .write 0x04 1 4, .expire .DOR1, .expire .CONV1].map (analogPins rcc, ·)

end Stm32Dac

/-- One step below the top the triangle reaches it. -/
theorem dor_range_raised : ∃ rcc u, Stm32Rcc.Reachable zeroHost 8000000 32768 rcc ∧
    run Stm32Dac.step (Stm32Dac.init .DAC) (raisedTriangle 0xffe rcc) = .ok u ∧
    (u.chan one).DOR = 0xfff ∧ (u.chan one).outPut = [2400] ∧
    ∀ t, Visits Stm32Dac.step (Stm32Dac.init .DAC) (raisedTriangle 0xffe rcc) t →
      ∀ c, (t.chan c).DOR.toNat ≤ 0xfff := by
  have hclocks : Post (fun rcc =>
      Meets Stm32Dac.step (LeavesRoom 0) (Stm32Dac.init .DAC) (raisedTriangle 0xffe rcc) ∧
      Post (fun u => (u.chan one).DOR = 0xfff ∧ (u.chan one).outPut = [2400]) (fun _ => False)
        (run Stm32Dac.step (Stm32Dac.init .DAC) (raisedTriangle 0xffe rcc)))
      (fun _ => False) clocks := by
    decide +kernel
  obtain ⟨rcc, hrcc, hroom, hrun⟩ := post_ok.1 hclocks
  obtain ⟨u, hu, hdor, hout⟩ := post_ok.1 hrun
  exact ⟨rcc, u, clocks_ok hrcc, hu, hdor, hout, ((dor_range_iff hu).2.1 0 hroom.takes).1⟩

/-- At the top the sum has thirteen bits, and the output drops to zero. -/
theorem not_dor_range_raised : ∃ rcc u, Stm32Rcc.Reachable zeroHost 8000000 32768 rcc ∧
    run Stm32Dac.step (Stm32Dac.init .DAC) (raisedTriangle 0xfff rcc) = .ok u ∧
    (u.chan one).DACC_DHR = 0xfff ∧ (u.chan one).DOR = 0x1000 ∧ (u.chan one).outPut = [0] := by
  have hclocks : Post (fun rcc =>
      Post (fun u => (u.chan one).DACC_DHR = 0xfff ∧ (u.chan one).DOR = 0x1000 ∧
        (u.chan one).outPut = [0]) (fun _ => False)
        (run Stm32Dac.step (Stm32Dac.init .DAC) (raisedTriangle 0xfff rcc)))
      (fun _ => False) clocks := by
    decide +kernel
  obtain ⟨rcc, hrcc, hrun⟩ := post_ok.1 hclocks
  obtain ⟨u, hu, hend⟩ := post_ok.1 hrun
  exact ⟨rcc, u, clocks_ok hrcc, hu, hend⟩

end Bluepill
