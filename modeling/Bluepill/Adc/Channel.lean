/-
  The channel of a conversion.

  `SQR3` has five bits for the channel, and there are eighteen channels.  The check of
  the pins lets the numbers from 16 on pass, since they have no pin, and the sample time
  asserts that there is such a channel.  So the only assertion that can fail is that of a
  conversion started with a number from 18 on (`channel_iff`).
-/
import Bluepill.Adc.Irq

namespace Bluepill

open Rcc

/-- The computation fails no assertion. -/
def Passes {α : Type} (x : Except Fault α) : Prop := Machine.Post (fun _ => True) (· ≠ .assertion) x

theorem Passes.bind {α β : Type} {x : Except Fault α} {f : α → Except Fault β} (hx : Passes x)
    (hf : ∀ a, Passes (f a)) : Passes (x >>= f) :=
  Machine.Post.bind hx fun a _ _ => hf a

theorem passes_ok {α : Type} (a : α) : Passes (.ok a) := trivial

theorem passes_iff {α : Type} {x : Except Fault α} : Passes x ↔ x ≠ .error .assertion := by
  cases x <;> simp [Passes, Machine.Post]

namespace Stm32Adc

variable {env : AdcEnv} {s t : Stm32Adc}

/-- The channel of the first conversion. -/
def channel (s : Stm32Adc) : ℕ := (s.SQR3 &&& 0x1f).toNat

/-- The operation starts a conversion: it writes `CR2`, with `SWSTART` and `ADON` set. -/
def Op.Starts : Op → Prop
  | .write offset value _ => offset / 4 * 4 = 0x08 ∧ value.getLsbD 22 = true ∧ value.getLsbD 0 = true
  | .read _ _ | .clkIrq _ | .convTimerExpire | .reset => False

/-- A conversion that is started is of a channel that exists. -/
def ChannelExists (s : Stm32Adc) (o : Op) : Prop := o.Starts → s.channel ≤ 17

/-! ## The start of a conversion -/

theorem getChannelNumber_one (s : Stm32Adc) : s.getChannelNumber 1 = .ok s.channel := by
  rw [getChannelNumber, assert_of (by decide), Machine.ok_bind, if_pos (by decide)]
  simp [channel]

theorem randomVref_passes (Vdda : ℤ) (rand : ℕ) : Passes (randomVref Vdda rand) := by
  unfold randomVref
  split
  · exact (nomatch ·)
  · trivial

theorem convert_passes (s : Stm32Adc) (c : ℕ) : Passes (s.convert env c) := by
  unfold convert
  split
  · generalize (env.rand 0 : ℤ) % (1200 + 1) + 2400 = Vdda
    exact (randomVref_passes Vdda _).bind fun _ => passes_ok _
  split
  · exact (randomVref_passes s.Vdda _).bind fun _ => passes_ok _
  · trivial

theorem getNbrCyclePerSample_passes (s : Stm32Adc) {c : ℕ} (h : c ≤ 17) :
    Passes (s.getNbrCyclePerSample c) := by
  rw [getNbrCyclePerSample, assert_of h, Machine.ok_bind]
  trivial

theorem startConv_passes (h : s.channel ≤ 17) : Passes (s.startConv env) := by
  rw [startConv, getChannelNumber_one, Machine.ok_bind]
  refine (convert_passes s _).bind fun u => ?_
  exact (getNbrCyclePerSample_passes _ h).bind fun _ => passes_ok _

/-- The conversion itself knows no bound on the channel. -/
theorem startConv_error (h : ¬ s.channel ≤ 17) : s.startConv env = .error .assertion := by
  have hconvert : s.convert env s.channel = .ok { s with DR := env.wave &&& 0xfff } := by
    rw [convert, if_neg (by omega), if_neg (by omega)]
  rw [startConv, getChannelNumber_one, Machine.ok_bind, hconvert, Machine.ok_bind]
  dsimp only
  rw [getNbrCyclePerSample, assert, if_neg h]
  rfl

theorem gpioCheck_passes (env : AdcEnv) (c : ℕ) : Passes (gpioCheck env c) := by
  unfold gpioCheck
  dsimp only
  split
  · split
    · exact (nomatch ·)
    split
    · exact (nomatch ·)
    · trivial
  · trivial

theorem adon_iff (v : BitVec 32) : v &&& 0x00fef90f &&& 0x01 ≠ 0 ↔ v.getLsbD 0 = true := by
  rw [BitVec.and_assoc, show (0x00fef90f : BitVec 32) &&& 0x01 = BitVec.twoPow 32 0 from rfl]
  exact Word.and_twoPow_ne_zero v (by decide)

theorem cr2Write_error_iff (v : BitVec 32) : s.cr2Write env v = .error .assertion ↔
    (v.getLsbD 22 = true ∧ v.getLsbD 0 = true) ∧ ¬ s.channel ≤ 17 := by
  unfold cr2Write
  dsimp only
  split
  · rename_i hstart
    split
    · rename_i hadon
      refine iff_of_false (nomatch ·) ?_
      rintro ⟨⟨-, h0⟩, -⟩
      exact (adon_iff v).2 h0 hadon
    · rename_i hadon
      have hon : v.getLsbD 22 = true ∧ v.getLsbD 0 = true := ⟨(swstart_iff v).1 hstart, (adon_iff v).1 hadon⟩
      have hs : channel { s with CR2 := v &&& 0x00fef90f } = s.channel := rfl
      rw [getChannelNumber_one, Machine.ok_bind, hs, and_iff_right hon]
      by_cases hc : s.channel ≤ 17
      · refine iff_of_false ?_ (not_not_intro hc)
        rw [← ne_eq, ← passes_iff]
        exact (gpioCheck_passes env _).bind fun _ => startConv_passes hc
      · have hcheck : gpioCheck env s.channel = .ok () := if_neg (by omega)
        rw [hcheck, Machine.ok_bind]
        exact iff_of_true (startConv_error hc) hc
  · rename_i hstart
    refine iff_of_false (nomatch ·) ?_
    rintro ⟨⟨h22, -⟩, -⟩
    exact hstart ((swstart_iff v).2 h22)

/-! ## The other operations -/

theorem srWrite_passes (s : Stm32Adc) (v : BitVec 32) : Passes (s.srWrite v) := by
  unfold srWrite
  split
  · exact (nomatch ·)
  split
  · exact (nomatch ·)
  split
  · exact (nomatch ·)
  split
  · exact (nomatch ·)
  split
  · exact (nomatch ·)
  · trivial

theorem drRead_passes (s : Stm32Adc) : Passes s.drRead := by
  unfold drRead
  split
  · exact (nomatch ·)
  split
  · trivial
  · exact (nomatch ·)

theorem read_passes (s : Stm32Adc) (offset size : ℕ) : Passes (s.read offset size) := by
  unfold read
  dsimp only
  split
  case h_20 => exact (drRead_passes s).bind fun _ => passes_ok _
  all_goals trivial

theorem writeReg_error_iff (s : Stm32Adc) (offset : ℕ) (value : BitVec 64) (size : ℕ) :
    s.writeReg env offset value = .error .assertion ↔
      Op.Starts (.write offset value size) ∧ ¬ s.channel ≤ 17 := by
  by_cases h8 : offset / 4 * 4 = 0x08
  · have hwrite : s.writeReg env offset value = s.cr2Write env (value.setWidth 32) := by
      unfold writeReg
      rw [h8]
      rfl
    rw [hwrite, cr2Write_error_iff, Op.Starts, and_iff_right h8]
    simp
  · refine iff_of_false ?_ fun h => h8 h.1.1
    rw [← ne_eq, ← passes_iff]
    unfold writeReg
    split
    case h_1 => exact srWrite_passes s _
    case h_3 h => exact absurd h h8
    case h_12 =>
      unfold sqr1Write
      split
      · exact (nomatch ·)
      · trivial
    all_goals trivial

/-- **The only assertion that can fail is that of the channel.** -/
theorem step_error_iff (hclk : (PERIPHCLK s.periph).isSome) (o : AdcEnv × Op) :
    step s o = .error .assertion ↔ ¬ s.ChannelExists o.2 := by
  obtain ⟨env, o⟩ := o
  obtain ⟨c, hc⟩ := Option.isSome_iff_exists.1 hclk
  cases o with
  | read offset size =>
    refine iff_of_false ?_ (not_not_intro fun h => h.elim)
    rw [← ne_eq, ← passes_iff]
    exact (read_passes s offset size).bind fun _ => passes_ok _
  | write offset value size =>
    have hwrite : step s (env, .write offset value size) = s.writeReg env offset value := by
      show (Stm32Rcc.checkPeriphClk s.periph >>= _) = _
      rw [Stm32Rcc.checkPeriphClk, assert_of hclk, Machine.ok_bind]
    rw [hwrite, writeReg_error_iff s offset value size, ChannelExists, Classical.not_imp]
  | clkIrq level =>
    refine iff_of_false ?_ (not_not_intro fun h => h.elim)
    rw [← ne_eq, ← passes_iff]
    show Passes (s.clkIrqHandler env 0 level)
    rw [clkIrqHandler, assert_of rfl, Machine.ok_bind]
    split
    · rw [updateNsPerSample, Stm32Rcc.getPeriphFreq, hc, Machine.ok_bind]
      split <;> trivial
    · trivial
  | convTimerExpire => exact iff_of_false (nomatch ·) (not_not_intro fun h => h.elim)
  | reset => exact iff_of_false (nomatch ·) (not_not_intro fun h => h.elim)

/-! ## Runs -/

@[simp] theorem updateIrq_periph (s : Stm32Adc) : s.updateIrq.periph = s.periph := by
  unfold updateIrq
  split <;> rfl

theorem convert_periph {c : ℕ} (h : s.convert env c = .ok t) : t.periph = s.periph := by
  unfold convert at h
  split at h
  · obtain ⟨_, -, h⟩ := Machine.bind_eq_ok.1 h
    cases h
    rfl
  split at h
  · obtain ⟨_, -, h⟩ := Machine.bind_eq_ok.1 h
    cases h
    rfl
  · cases h
    rfl

theorem cr2Write_periph {v : BitVec 32} (h : s.cr2Write env v = .ok t) : t.periph = s.periph := by
  unfold cr2Write at h
  dsimp only at h
  split at h
  · split at h
    · cases h
    obtain ⟨_, -, h⟩ := Machine.bind_eq_ok.1 h
    obtain ⟨_, -, h⟩ := Machine.bind_eq_ok.1 h
    obtain ⟨c, -, h⟩ := Machine.bind_eq_ok.1 h
    obtain ⟨r, hr, h⟩ := Machine.bind_eq_ok.1 h
    obtain ⟨_, -, h⟩ := Machine.bind_eq_ok.1 h
    cases h
    have hperiph := convert_periph hr
    exact hperiph
  · cases h
    rfl

theorem srWrite_periph {v : BitVec 32} (h : s.srWrite v = .ok t) : t.periph = s.periph := by
  unfold srWrite at h
  split_ifs at h
  cases h
  simp

theorem writeReg_periph {offset : ℕ} {value : BitVec 64} (h : s.writeReg env offset value = .ok t) :
    t.periph = s.periph := by
  unfold writeReg at h
  split at h
  case h_1 => exact srWrite_periph h
  case h_2 =>
    cases h
    simp
  case h_3 => exact cr2Write_periph h
  case h_12 =>
    unfold sqr1Write at h
    split at h
    · cases h
    · cases h
      rfl
  all_goals
    cases h
    rfl

theorem read_periph {offset size : ℕ} {x : BitVec 64 × Stm32Adc} (h : s.read offset size = .ok x) :
    x.2.periph = s.periph := by
  unfold read at h
  dsimp only at h
  split at h
  case h_20 =>
    obtain ⟨y, hy, h⟩ := Machine.bind_eq_ok.1 h
    cases h
    unfold drRead at hy
    split_ifs at hy
    cases hy
    simp
  all_goals
    cases h
    rfl

theorem step_periph {o : AdcEnv × Op} (h : step s o = .ok t) : t.periph = s.periph := by
  obtain ⟨env, o⟩ := o
  cases o with
  | read offset size =>
    obtain ⟨x, hx, h⟩ := Machine.bind_eq_ok.1 h
    cases h
    exact read_periph hx
  | write offset value size =>
    obtain ⟨_, -, h⟩ := Machine.bind_eq_ok.1 h
    exact writeReg_periph h
  | clkIrq level =>
    obtain ⟨_, -, h⟩ := Machine.bind_eq_ok.1 h
    split at h
    · obtain ⟨_, -, h⟩ := Machine.bind_eq_ok.1 h
      split at h <;> cases h <;> rfl
    · cases h
      rfl
  | convTimerExpire =>
    cases h
    split
    · simp [convComplete]
    · rfl
  | reset =>
    cases h
    simp [reset]

theorem init_periph {periph : Periph} (h : init env periph = .ok s) : s.periph = periph := by
  obtain ⟨_, -, h⟩ := Machine.bind_eq_ok.1 h
  cases h
  simp [reset, powerOn]

/-- **No assertion fails in a run exactly if every conversion that is started is of a channel
    that exists.** -/
theorem channel_iff {periph : Periph} {l : List (AdcEnv × Op)} (hclk : (PERIPHCLK periph).isSome)
    (hs : init env periph = .ok s) : Machine.run step s l ≠ .error .assertion ↔
      ∀ t o, Machine.Takes step s l t o → o.2.Starts → t.channel ≤ 17 := by
  have hI : ∀ t o u, (PERIPHCLK t.periph).isSome → step t o = .ok u → (PERIPHCLK u.periph).isSome := by
    intro t o u ht hu
    rwa [step_periph hu]
  have hsome : (PERIPHCLK s.periph).isSome := by
    rw [init_periph hs]
    exact hclk
  exact Machine.run_ne_error_iff (I := fun t : Stm32Adc => (PERIPHCLK t.periph).isSome)
    (C := fun (t : Stm32Adc) o => t.ChannelExists o.2) hI (fun t o ht => step_error_iff ht o) hsome

/-! ## The last channels of ADC1 -/

instance : (o : Op) → Decidable o.Starts
  | .write _ _ _ => inferInstanceAs (Decidable (_ ∧ _ ∧ _))
  | .read _ _ | .clkIrq _ | .convTimerExpire | .reset => .isFalse id

/-- A conversion of the channel `c`. -/
def sampling (rcc : Stm32Rcc) (c : BitVec 64) : List (AdcEnv × Op) :=
  [(analogEnv rcc, .write 0x34 c 4), (analogEnv rcc, .write 0x08 0x00400001 4)]

/-- Channel 17 is the last one. -/
theorem channel_iff_last : ∃ rcc s, Stm32Rcc.Reachable zeroHost 8000000 32768 rcc ∧
    init (analogEnv rcc) .ADC1 = .ok s ∧ Machine.run step s (sampling rcc 17) ≠ .error .assertion := by
  have hboard : Machine.Post (fun x => Machine.Meets step (fun t o => o.2.Starts → t.channel ≤ 17) x.2
      (sampling x.1 17)) (fun _ => False) board := by
    decide +kernel
  obtain ⟨⟨rcc, s⟩, hx, hmeets⟩ := Machine.post_ok.1 hboard
  obtain ⟨hrcc, hs⟩ := board_ok hx
  exact ⟨rcc, s, hrcc, hs, (channel_iff (by decide) hs).2 hmeets.takes⟩

/-- Channel 18 passes all checks but the assertion. -/
theorem not_channel_eighteen : ∃ rcc s, Stm32Rcc.Reachable zeroHost 8000000 32768 rcc ∧
    init (analogEnv rcc) .ADC1 = .ok s ∧ Machine.run step s (sampling rcc 18) = .error .assertion := by
  have hboard : Machine.Post (fun x => Machine.Post (fun _ => False) (· = .assertion)
      (Machine.run step x.2 (sampling x.1 18))) (fun _ => False) board := by
    decide +kernel
  obtain ⟨⟨rcc, s⟩, hx, hrun⟩ := Machine.post_ok.1 hboard
  exact ⟨rcc, s, (board_ok hx).1, (board_ok hx).2, Machine.post_error.1 hrun⟩

end Stm32Adc

end Bluepill
