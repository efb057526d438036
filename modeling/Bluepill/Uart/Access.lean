/-
  Accesses of the guest to the registers of the UART.

  A write to `SR` clears `TC` and `RXNE`, and aborts if it would leave one of them: a `1` is
  taken for an attempt to set the flag, whether it is set or not.  So a value read from `SR`
  can be written back only without the flags that are set (`sr_write_back_iff`).

  A write to one half of `BRR` or a control register is merged with the other half and goes
  through the register's own function.  Two such writes do what one write of both halves does
  (`halves_compose`): the function is the same for the second write whatever the first one
  left, and repeating an update of the rate or of the interrupt changes nothing.
-/
import Bluepill.Uart.Baud
import Bluepill.Uart.Irq

namespace Bluepill

open Rcc Machine
open Stm32Rcc (Access)
open Word (Half)

namespace Stm32Uart

variable {build : UartBuild} {env env' : UartEnv} {s t : Stm32Uart} {v f : BitVec 32}

/-! ## The status register -/

/-- A write of `v` to `SR` succeeds, and leaves those of `TC` and `RXNE` set that were set and
    that `v` has. -/
def SrAccepts (build : UartBuild) (env : UartEnv) (s : Stm32Uart) (v : BitVec 64) (size : ℕ) : Prop :=
  ∃ t, s.write build env 0x00 v size = .ok t ∧
    t.SR_TC = (s.SR_TC && v.getLsbD 6) ∧ t.SR_RXNE = (s.SR_RXNE && v.getLsbD 5)

theorem updateIrq_TC (s : Stm32Uart) : s.updateIrq.SR_TC = s.SR_TC := by
  obtain ⟨_, _, h⟩ := s.updateIrq_eq
  rw [h]

theorem updateIrq_RXNE (s : Stm32Uart) : s.updateIrq.SR_RXNE = s.SR_RXNE := by
  obtain ⟨_, _, h⟩ := s.updateIrq_eq
  rw [h]

/-- The flags as they are read. -/
theorem srRead_flags (s : Stm32Uart) :
    s.srRead.1.getLsbD 6 = s.SR_TC ∧ s.srRead.1.getLsbD 5 = s.SR_RXNE := by
  have hbits : ∀ txe tc rxne ore : Bool,
      (flag txe <<< 7 ||| flag tc <<< 6 ||| flag rxne <<< 5 ||| flag ore <<< 3).getLsbD 6 = tc ∧
      (flag txe <<< 7 ||| flag tc <<< 6 ||| flag rxne <<< 5 ||| flag ore <<< 3).getLsbD 5 = rxne := by
    decide
  unfold srRead
  dsimp only
  split
  · exact hbits _ _ _ _
  · exact hbits _ _ _ _

/-- The low half of a register that is written at its address. -/
theorem getLsbD_laneValue (old : BitVec 32) (value : BitVec 64) {size i : ℕ} (hsize : size = 2 ∨ size = 4)
    (hi : i < 16) : (laneValue old 0x00 value size).getLsbD i = value.getLsbD i := by
  have hlen : size * 8 ≤ 32 ∧ 16 ≤ size * 8 := by omega
  rw [laneValue, BitVec.getLsbD_setWidth, decide_eq_true (show i < 32 by omega), Bool.true_and, deposit64]
  change (Word.deposit (old.setWidth 64) 0 (size * 8) value).getLsbD i = _
  rw [Word.getLsbD_deposit _ _ (by omega) (by omega), if_pos (by omega), Nat.sub_zero]

/-- **A write to `SR` is accepted if it leaves neither flag.** -/
theorem srAccepts_iff {size : ℕ} (hsize : size = 2 ∨ size = 4) (v : BitVec 64) :
    SrAccepts build env s v size ↔ v.getLsbD 6 = false ∧ v.getLsbD 5 = false := by
  have hwrite : s.write build env 0x00 v size =
      s.srRead.2.srWrite (laneValue s.srRead.1 0x00 v size) := rfl
  have hTC : extract32 (laneValue s.srRead.1 0x00 v size) 6 1 ≠ 0 ↔ v.getLsbD 6 = true := by
    rw [← getLsbD_laneValue s.srRead.1 v hsize (by decide)]
    exact Word.extract_one_ne_zero _ (by decide)
  have hRXNE : extract32 (laneValue s.srRead.1 0x00 v size) 5 1 ≠ 0 ↔ v.getLsbD 5 = true := by
    rw [← getLsbD_laneValue s.srRead.1 v hsize (by decide)]
    exact Word.extract_one_ne_zero _ (by decide)
  rw [SrAccepts, hwrite, srWrite]
  dsimp only
  split
  · rename_i h
    refine iff_of_false ?_ fun hv => ?_
    · rintro ⟨t, ht, -⟩
      cases ht
    · rw [hTC.1 h] at hv
      cases hv.1
  rename_i h
  split
  · rename_i h'
    refine iff_of_false ?_ fun hv => ?_
    · rintro ⟨t, ht, -⟩
      cases ht
    · rw [hRXNE.1 h'] at hv
      cases hv.2
  · rename_i h'
    have h6 : v.getLsbD 6 = false := Bool.eq_false_iff.2 (mt hTC.2 h)
    have h5 : v.getLsbD 5 = false := Bool.eq_false_iff.2 (mt hRXNE.2 h')
    refine iff_of_true ⟨_, rfl, ?_, ?_⟩ ⟨h6, h5⟩
    · rw [updateIrq_TC, h6, Bool.and_false]
      exact bne_eq_false_iff_eq.2 (not_not.1 h)
    · rw [updateIrq_RXNE, h5, Bool.and_false]
      exact bne_eq_false_iff_eq.2 (not_not.1 h')

/-- The flags in a value read from `SR`. -/
theorem read_sr_flags {size : ℕ} (hsize : size = 2 ∨ size = 4) {x : BitVec 64}
    (hread : s.read 0x00 size = .ok (x, t)) : x.getLsbD 6 = s.SR_TC ∧ x.getLsbD 5 = s.SR_RXNE := by
  have hx : x = extract64 (s.srRead.1.setWidth 64) 0 (size * 8) := by
    cases hread
    rfl
  have hbit : ∀ i < 16, x.getLsbD i = s.srRead.1.getLsbD i := by
    intro i hi
    rw [hx, extract64, Word.getLsbD_extract _ (by omega), decide_eq_true (show i < size * 8 by omega),
      Bool.true_and, Nat.zero_add, BitVec.getLsbD_setWidth, decide_eq_true (show i < 64 by omega),
      Bool.true_and]
  obtain ⟨hTC, hRXNE⟩ := s.srRead_flags
  exact ⟨(hbit 6 (by decide)).trans hTC, (hbit 5 (by decide)).trans hRXNE⟩

end Stm32Uart

open Stm32Uart

/-- **When a value read from `SR` can be written back** with the bits of `m` only: `m` must not
    have a flag that is set.  The complements of the two flags are never accepted. -/
theorem sr_write_back_iff (build : UartBuild) (env : UartEnv) {s t : Stm32Uart} {size : ℕ}
    (hsize : size = 2 ∨ size = 4) {x : BitVec 64} (hread : s.read 0x00 size = .ok (x, t)) :
    (∀ m, SrAccepts build env t (x &&& m) size ↔
      (s.SR_TC = true → m.getLsbD 6 = false) ∧ (s.SR_RXNE = true → m.getLsbD 5 = false)) ∧
    ¬ SrAccepts build env t 0xffbf size ∧ ¬ SrAccepts build env t 0xffdf size := by
  obtain ⟨hTC, hRXNE⟩ := read_sr_flags hsize hread
  refine ⟨fun m => ?_, ?_, ?_⟩
  · rw [srAccepts_iff hsize, BitVec.getLsbD_and, BitVec.getLsbD_and, hTC, hRXNE]
    cases s.SR_TC <;> cases s.SR_RXNE <;> simp
  · rw [srAccepts_iff hsize]
    decide
  · rw [srAccepts_iff hsize]
    decide

/-- `UART1` as the board makes it: `TC` is set, and a value without it is accepted. -/
theorem sr_write_back_idle : ∃ rcc, Stm32Rcc.Reachable zeroHost 8000000 32768 rcc ∧
    start .shipped (readyEnv rcc) .UART1 true 0 = .ok idle ∧ idle.read 0x00 2 = .ok (0xc0, idle) ∧
    SrAccepts .shipped (readyEnv rcc) idle (0xc0 &&& 0xffbf) 2 := by
  obtain ⟨rcc, hrcc⟩ := Stm32Rcc.exists_reachable zeroHost 8000000 32768
  refine ⟨rcc, hrcc, start_idle _, rfl, ?_⟩
  exact ((sr_write_back_iff .shipped (readyEnv rcc) (.inl rfl) (s := idle) (t := idle) rfl).1 0xffbf).2
    ⟨fun _ => rfl, fun h => by cases h⟩

/-- Written back as it was read, it aborts the emulator, and so does the complement of `RXNE`. -/
theorem not_sr_write_back_idle : ∃ rcc, Stm32Rcc.Reachable zeroHost 8000000 32768 rcc ∧
    start .shipped (readyEnv rcc) .UART1 true 0 = .ok idle ∧ idle.read 0x00 2 = .ok (0xc0, idle) ∧
    idle.write .shipped (readyEnv rcc) 0x00 0xc0 2 =
      .error (.hwError "Software attempted to set USART TC bit\n") ∧
    idle.write .shipped (readyEnv rcc) 0x00 0xffdf 2 =
      .error (.hwError "Software attempted to set USART TC bit\n") := by
  obtain ⟨rcc, hrcc⟩ := Stm32Rcc.exists_reachable zeroHost 8000000 32768
  exact ⟨rcc, hrcc, start_idle _, rfl, rfl, rfl⟩

/-! ## Halves of the control registers -/

namespace Stm32Uart

variable {build : UartBuild} {env env' : UartEnv} {s t u : Stm32Uart} {v w f : BitVec 32}

/-- The registers that hold what is written to them. -/
inductive CtrlReg where
  | BRR | CR1 | CR2 | CR3

namespace CtrlReg

def offset : CtrlReg → ℕ
  | BRR => 0x08 | CR1 => 0x0c | CR2 => 0x10 | CR3 => 0x14

/-- The bits of the register that exist. -/
def mask : CtrlReg → BitVec 32
  | BRR => 0x0000ffff | CR1 => 0x00003fff | CR2 => 0x00007f7f | CR3 => 0x000007ff

end CtrlReg

def ctrl (s : Stm32Uart) : CtrlReg → BitVec 32
  | .BRR => s.BRR | .CR1 => s.CR1 | .CR2 => s.CR2 | .CR3 => s.CR3

/-- The function of the register. -/
def ctrlWrite (build : UartBuild) (env : UartEnv) (s : Stm32Uart) (r : CtrlReg) (v : BitVec 32) :
    Except Fault Stm32Uart :=
  match r with
  | .BRR => brrWrite env s v
  | .CR1 => cr1Write env s v
  | .CR2 => .ok (cr2Write s v)
  | .CR3 => .ok (cr3Write build env s v)

/-- A write to one half goes to the function of the register, with the other half as it was. -/
theorem write_half (s : Stm32Uart) (r : CtrlReg) (h : Half) (x : BitVec 16) :
    s.write build env (r.offset + h.offset) (x.setWidth 64) 2 =
      ctrlWrite build env s r (h.put (s.ctrl r) x) := by
  cases r <;> cases h <;> rfl

theorem write_whole (s : Stm32Uart) (r : CtrlReg) (v : BitVec 32) :
    s.write build env r.offset (v.setWidth 64) 4 = ctrlWrite build env s r v := by
  have hlane : ∀ old : BitVec 32, (deposit64 (old.setWidth 64) 0 32 (v.setWidth 64)).setWidth 32 = v := by
    intro old
    apply BitVec.eq_of_getLsbD_eq
    intro i hi
    rw [BitVec.getLsbD_setWidth, decide_eq_true hi, Bool.true_and, deposit64,
      Word.getLsbD_deposit _ _ (by decide) (by omega), if_pos (by omega), Nat.sub_zero,
      BitVec.getLsbD_setWidth, decide_eq_true (show i < 64 by omega), Bool.true_and]
  have hwrite : s.write build env r.offset (v.setWidth 64) 4 = ctrlWrite build env s r
      ((deposit64 ((s.ctrl r).setWidth 64) 0 32 (v.setWidth 64)).setWidth 32) := by
    cases r <;> rfl
  rw [hwrite, hlane]

theorem read_half (s : Stm32Uart) (r : CtrlReg) (h : Half) :
    s.read (r.offset + h.offset) 2 = .ok ((h.of (s.ctrl r)).setWidth 64, s) := by
  have hread : s.read (r.offset + h.offset) 2 =
      .ok (extract64 ((s.ctrl r).setWidth 64) h.start 16, s) := by
    cases r <;> cases h <;> rfl
  rw [hread, extract64, h.extract_eq]

theorem read_whole (s : Stm32Uart) (r : CtrlReg) :
    s.read r.offset 4 = .ok ((s.ctrl r).setWidth 64, s) := by
  have hlane : ∀ x : BitVec 32, extract64 (x.setWidth 64) 0 32 = x.setWidth 64 := by
    intro x
    apply BitVec.eq_of_getLsbD_eq
    intro i hi
    rw [extract64, Word.getLsbD_extract _ (by decide), Nat.zero_add, BitVec.getLsbD_setWidth]
    by_cases hlt : i < 32
    · rw [decide_eq_true hlt, Bool.true_and]
    · simp [hlt, BitVec.getLsbD_of_ge x i (by omega)]
  have hread : s.read r.offset 4 = .ok (extract64 ((s.ctrl r).setWidth 64) 0 32, s) := by
    cases r <;> rfl
  rw [hread, hlane]

/-! ### Bits that do not exist -/

theorem extract32_and_mask (v m : BitVec 32) {i : ℕ} (hi : i < 32) (hm : m.getLsbD i = true) :
    extract32 (v &&& m) i 1 = extract32 v i 1 := by
  have h : ∀ x : BitVec 32, extract32 x i 1 = if x.getLsbD i then 1#32 else 0#32 :=
    fun x => Word.extract_one x hi
  rw [h, h, BitVec.getLsbD_and, hm, Bool.and_true]

/-- The function of a register looks only at the bits that exist. -/
theorem ctrlWrite_and_mask (s : Stm32Uart) (r : CtrlReg) (v : BitVec 32) :
    ctrlWrite build env s r (v &&& r.mask) = ctrlWrite build env s r v := by
  have hidem : ∀ m : BitVec 32, v &&& m &&& m = v &&& m := fun m => by
    rw [BitVec.and_assoc, BitVec.and_self]
  cases r with
  | BRR =>
    change brrWrite env s (v &&& 0x0000ffff) = brrWrite env s v
    rw [brrWrite, brrWrite, hidem]
  | CR1 =>
    have hbit : ∀ i < 32, (0x00003fff : BitVec 32).getLsbD i = true →
        extract32 (v &&& 0x00003fff) i 1 = extract32 v i 1 :=
      fun i hi hm => extract32_and_mask v _ hi hm
    change cr1Write env s (v &&& 0x00003fff) = cr1Write env s v
    rw [cr1Write, cr1Write, hidem, hbit 13 (by decide) rfl, hbit 7 (by decide) rfl,
      hbit 6 (by decide) rfl, hbit 5 (by decide) rfl, hbit 3 (by decide) rfl, hbit 2 (by decide) rfl]
  | CR2 =>
    change Except.ok (cr2Write s (v &&& 0x00007f7f)) = .ok (cr2Write s v)
    rw [cr2Write, cr2Write, hidem]
  | CR3 =>
    change Except.ok (cr3Write build env s (v &&& 0x000007ff)) = .ok (cr3Write build env s v)
    rw [cr3Write, cr3Write, hidem]

/-- What a write leaves in the register. -/
theorem ctrlWrite_ctrl {r : CtrlReg} (h : ctrlWrite build env s r v = .ok t) :
    t.ctrl r = v &&& r.mask := by
  cases r with
  | BRR =>
    obtain ⟨_, _, rfl⟩ := baudUpdate_eq h
    rfl
  | CR1 =>
    obtain ⟨-, -, h⟩ := bind_eq_ok.1 h
    cases h
    obtain ⟨_, _, h⟩ := updateIrq_eq _
    rw [h]
    rfl
  | CR2 =>
    cases h
    rfl
  | CR3 =>
    cases h
    change (cr3Write build env s v).CR3 = _
    unfold cr3Write
    dsimp only
    split
    · split <;> rfl
    · rfl

/-! ### Repeated updates -/

/-- With one level on the line and in the device, the update sets both. -/
theorem updateIrq_of_same (h : s.irq = s.currIrqLevel) :
    s.updateIrq = { s with irq := s.line.level, currIrqLevel := s.line.level } := by
  unfold updateIrq
  dsimp only
  split
  · rfl
  · rename_i hx
    have hlevel : s.line.level = s.currIrqLevel := by simpa [line, Line.level] using hx
    have hirq : s.line.level = s.irq := hlevel.trans h.symm
    generalize s.line.level = level at hlevel hirq
    cases s
    cases hlevel
    cases hirq
    rfl

/-- `s` with the bits of `CR1` in `v`, before the interrupt is updated. -/
def withCR1 (s : Stm32Uart) (v : BitVec 32) : Stm32Uart :=
  { s with
    CR1_UE := extract32 v 13 1 != 0
    CR1_TXEIE := extract32 v 7 1 != 0
    CR1_TCIE := extract32 v 6 1 != 0
    CR1_RXNEIE := extract32 v 5 1 != 0
    CR1_TE := extract32 v 3 1 != 0
    CR1_RE := extract32 v 2 1 != 0
    CR1 := v &&& 0x00003fff }

theorem cr1Write_eq (h : cr1Write env s v = .ok t) : t = (s.withCR1 v).updateIrq := by
  obtain ⟨-, -, h⟩ := bind_eq_ok.1 h
  cases h
  rfl

/-- The second of two writes to `CR1` leaves what it leaves without the first. -/
theorem withCR1_updateIrq (h : s.irq = s.currIrqLevel) (w v : BitVec 32) :
    ((s.withCR1 w).updateIrq.withCR1 v).updateIrq = (s.withCR1 v).updateIrq := by
  have hw : (s.withCR1 w).irq = (s.withCR1 w).currIrqLevel := h
  have hv : (s.withCR1 v).irq = (s.withCR1 v).currIrqLevel := h
  rw [updateIrq_of_same hw, updateIrq_of_same hv]
  exact updateIrq_of_same rfl

/-- The rate depends on the clock and on `BRR` only. -/
theorem baudUpdate_congr (hrcc : env.rcc = env'.rcc) (s : Stm32Uart) :
    baudUpdate env s = baudUpdate env' s := by
  rw [baudUpdate, baudUpdate, hrcc]

/-- A rate that is right is not changed by an update. -/
theorem baudUpdate_of_right (hf : env.rcc.getPeriphFreq s.periph = .ok f) (hr : s.rate.Right f)
    (h : baudUpdate env s = .ok t) : t = s := by
  have hpost := baudUpdate_post hf
  rw [h] at hpost
  obtain ⟨-, hBRR, hright⟩ := hpost
  have hbits : t.bitsPerSec = s.bitsPerSec := by
    apply BitVec.eq_of_toNat_eq
    refine hright.bits.trans (Eq.trans ?_ hr.bits.symm)
    rw [hBRR]
    rfl
  unfold baudUpdate at h
  rw [hf, ok_bind] at h
  split at h
  · cases h
    change 0 = s.bitsPerSec at hbits
    rw [hbits]
  · dsimp only at h
    split at h
    · cases h
    · rename_i hne
      cases h
      have hns : (1000000000 / (f / s.BRR).setWidth 64 * 10 : BitVec 64) = s.nsPerChar := by
        apply BitVec.eq_of_toNat_eq
        refine (hright.ns hne).trans (Eq.trans ?_ (hr.ns ?_).symm)
        · exact congrArg (fun b : BitVec 32 => 10 * (10 ^ 9 / b.toNat)) hbits
        · exact fun h0 => hne (hbits.trans h0)
      change f / s.BRR = s.bitsPerSec at hbits
      rw [hns, hbits]

/-! ### Two writes -/

/-- What the accesses of a run leave: a rate that is right for the frequency `f`, a `BRR` of 16
    bits, and one level on the line and in the device. -/
structure Settled (f : BitVec 32) (s : Stm32Uart) : Prop where
  rate : s.rate.Right f
  BRR : s.BRR &&& 0x0000ffff = s.BRR
  same : s.irq = s.currIrqLevel

variable {env₁ env₂ : UartEnv} {s₁ s₂ : Stm32Uart}

/-- Two words with the same low half. -/
theorem and_ffff_of_low {v w : BitVec 32} (h : Half.low.of v = Half.low.of w) :
    v &&& 0x0000ffff = w &&& 0x0000ffff := by
  apply Half.ext_of .low
  · rw [Half.of_and, Half.of_and, h]
  · have hmask : Half.low.other.of 0x0000ffff = 0#16 := by decide
    rw [Half.of_and, Half.of_and, hmask, BitVec.and_zero, BitVec.and_zero]

/-- The rate after two writes to the halves of `BRR`: the high half has no bits, so one of the
    writes is the write of the whole, and the other changes nothing. -/
theorem brrWrite_halves (hs : s.Settled f) (hf : env.rcc.getPeriphFreq s.periph = .ok f)
    (h₁rcc : env₁.rcc = env.rcc) (h₂rcc : env₂.rcc = env.rcc) (h : Half)
    (h₁ : brrWrite env₁ s (h.put s.BRR (h.of v)) = .ok s₁)
    (h₂ : brrWrite env₂ s₁ v = .ok s₂) (ht : brrWrite env s v = .ok t) : s₂ = t := by
  rw [brrWrite, baudUpdate_congr h₁rcc] at h₁
  rw [brrWrite, baudUpdate_congr h₂rcc] at h₂
  rw [brrWrite] at ht
  cases h with
  | low =>
    rw [and_ffff_of_low (Half.of_put .low s.BRR (Half.low.of v))] at h₁
    cases h₁.symm.trans ht
    have hpost := baudUpdate_post (s := { s with BRR := v &&& 0x0000ffff }) hf
    rw [h₁] at hpost
    obtain ⟨hperiph, -, hright⟩ := hpost
    have hsame : { t with BRR := v &&& 0x0000ffff } = t := by
      obtain ⟨_, _, rfl⟩ := baudUpdate_eq h₁
      rfl
    rw [hsame] at h₂
    refine baudUpdate_of_right ?_ hright h₂
    rw [show t.periph = s.periph from hperiph]
    exact hf
  | high =>
    rw [and_ffff_of_low (Half.other_of_put .high s.BRR (Half.high.of v)), hs.BRR] at h₁
    cases baudUpdate_of_right hf hs.rate h₁
    exact Except.ok.inj (h₂.symm.trans ht)

/-- **Two writes to the halves of a register do what one write does.** -/
theorem ctrlWrite_halves (hs : s.Settled f) (hf : env.rcc.getPeriphFreq s.periph = .ok f)
    (h₁rcc : env₁.rcc = env.rcc) (h₂rcc : env₂.rcc = env.rcc) (r : CtrlReg) (h : Half)
    (h₁ : ctrlWrite .shipped env₁ s r (h.put (s.ctrl r) (h.of v)) = .ok s₁)
    (h₂ : ctrlWrite .shipped env₂ s₁ r (h.other.put (s₁.ctrl r) (h.other.of v)) = .ok s₂)
    (ht : ctrlWrite .shipped env s r v = .ok t) : s₂ = t := by
  -- the second write finds the bits that exist of the first half, and completes them to `v`
  have hv : ctrlWrite .shipped env₂ s₁ r v = .ok s₂ := by
    rw [← ctrlWrite_and_mask, ← h.put_both (s.ctrl r), ctrlWrite_and_mask, ← ctrlWrite_ctrl h₁]
    exact h₂
  cases r with
  | BRR => exact brrWrite_halves hs hf h₁rcc h₂rcc h h₁ hv ht
  | CR1 =>
    rw [cr1Write_eq hv, cr1Write_eq h₁, cr1Write_eq ht]
    exact withCR1_updateIrq hs.same _ v
  | CR2 =>
    cases h₁
    cases hv
    cases ht
    rfl
  | CR3 =>
    -- without the delays, no timer is started
    have hcr3 : ∀ (env : UartEnv) (s : Stm32Uart) (v : BitVec 32),
        cr3Write .shipped env s v = { s with CR3 := v &&& 0x000007ff } := by
      intro env s v
      unfold cr3Write
      dsimp only
      split <;> rfl
    rw [ctrlWrite, hcr3] at h₁ hv ht
    cases h₁
    cases hv
    cases ht
    rfl

/-! ### The board -/

theorem Op.brr_masked (hs : s.BRR &&& 0x0000ffff = s.BRR) (o : Op) :
    o.brr s &&& 0x0000ffff = o.brr s := by
  cases o with
  | write offset value size =>
    by_cases ho : offset / 4 * 4 = 0x08
    · rw [Op.brr, if_pos ho, BitVec.and_assoc, BitVec.and_self]
    · rw [Op.brr, if_neg ho]
      exact hs
  | reset => exact BitVec.zero_and
  | _ => exact hs

theorem Settled.step (hs : s.Settled f) (hf : env.rcc.getPeriphFreq s.periph = .ok f)
    (hd : s.line.Driven) {o : Op} (ht : step build s (env, o) = .ok t) :
    t.periph = s.periph ∧ t.Settled f ∧ t.line.Driven := by
  have hpost : Post _ _ (Stm32Uart.step build s (env, o)) := step_post hf o
  rw [ht] at hpost
  obtain ⟨hperiph, hBRR, hright⟩ := hpost
  have hdriven := step_driven hd ht
  have hmask : t.BRR &&& 0x0000ffff = t.BRR := by
    rw [show t.BRR = o.brr s from hBRR]
    exact o.brr_masked hs.BRR
  exact ⟨hperiph, ⟨hright hs.rate, hmask, hdriven.same⟩, hdriven⟩

/-- **Every state of the board is settled** for the frequency of its clock. -/
theorem board_settled {host : Host} {irq : Irq} {oscFreq osc32Freq : BitVec 32} {p : Periph}
    {chr : Bool} {map : BitVec 32} {b₀ b : Board Stm32Uart}
    (hmade : Board.Made (client build p chr map) irq oscFreq osc32Freq p b₀)
    {ops : List (Board.Op Around Op)}
    (hrun : run (Board.step (client build p chr map) host irq) b₀ ops = .ok b) :
    ∃ f, b.rcc.getPeriphFreq b.dev.periph = .ok f ∧ b.dev.Settled f := by
  obtain ⟨c, hp, hBRR, hcur⟩ := start_current hmade
  have hdriven : b₀.dev.line.Driven := by
    obtain ⟨a, ha⟩ := hmade.start
    exact start_driven ha
  have hstart : b₀.dev.Settled (b₀.freq c) := by
    refine ⟨hcur.2, ?_, hdriven.same⟩
    rw [hBRR]
    exact BitVec.zero_and
  have h : Post (fun b => b.Kept irq c ∧ True ∧
        (b.dev.periph = p ∧ b.dev.Settled (b.freq c) ∧ b.dev.line.Driven)) (fun _ => True)
      (run (Board.step (client build p chr map) host irq) b₀ ops) := by
    refine Board.run_post (C := fun _ _ => True) (J := fun _ => True) (E := fun _ => True)
      (P := fun f s => s.periph = p ∧ s.Settled f ∧ s.line.Driven) (fun _ _ _ _ _ => trivial)
      trivial ?_ ?_ (hmade.kept hp) trivial ⟨hcur.1, hstart, hdriven⟩ fun _ _ _ => trivial
    · -- the new frequency comes with an update of the rate
      rintro a v - rcc s f ⟨rfl, hs, hd⟩ hf
      refine Post.of_ok fun t ht => ?_
      have ht : baudUpdate (a.withRcc rcc) s = .ok t := ht
      have hpost : Post _ _ (baudUpdate (a.withRcc rcc) s) :=
        baudUpdate_post (Stm32Rcc.getPeriphFreq_of hp hf)
      rw [ht] at hpost
      obtain ⟨hperiph, hbrr, hright⟩ := hpost
      have hline := baudUpdate_line ht
      rw [← hline] at hd
      refine ⟨hperiph, ⟨hright, ?_, hd.same⟩, hd⟩
      rw [show t.BRR = s.BRR from hbrr]
      exact hs.BRR
    · rintro b a o - - ⟨rfl, hset, hd⟩
      refine Post.of_ok fun t ht => ?_
      have hf : (a.withRcc b.rcc).rcc.getPeriphFreq b.dev.periph = .ok (b.freq c) :=
        b.rcc.getPeriphFreq_eq hp
      exact hset.step hf hd ht
  rw [hrun] at h
  obtain ⟨-, -, hperiph, hsettled, -⟩ := h
  exact ⟨b.freq c, b.rcc.getPeriphFreq_eq (hperiph ▸ hp), hsettled⟩

end Stm32Uart

/-- **Accesses to halves compose.**  In every state of a board with the shipped build, the writes of
    the two halves of `v`, in either order, lead to the state that one write of `v` leads to, if
    none of the three aborts; the reads of the halves give the halves of the register. -/
theorem halves_compose {host : Host} {irq : Irq} {oscFreq osc32Freq : BitVec 32} {p : Periph}
    {chr : Bool} {map : BitVec 32} {b₀ b : Board Stm32Uart}
    (hmade : Board.Made (client .shipped p chr map) irq oscFreq osc32Freq p b₀)
    {ops : List (Board.Op Around Stm32Uart.Op)}
    (hrun : run (Board.step (client .shipped p chr map) host irq) b₀ ops = .ok b) (r : CtrlReg) :
    (∀ (h : Half) (v : BitVec 32) (a₁ a₂ a : Around) (s₁ s₂ t : Stm32Uart),
      b.dev.write .shipped (a₁.withRcc b.rcc) (r.offset + h.offset) ((h.of v).setWidth 64) 2 = .ok s₁ →
      s₁.write .shipped (a₂.withRcc b.rcc) (r.offset + h.other.offset) ((h.other.of v).setWidth 64) 2 =
        .ok s₂ →
      b.dev.write .shipped (a.withRcc b.rcc) r.offset (v.setWidth 64) 4 = .ok t → s₂ = t) ∧
    ∃ x : BitVec 32, b.dev.read r.offset 4 = .ok (x.setWidth 64, b.dev) ∧
      ∀ h : Half, b.dev.read (r.offset + h.offset) 2 = .ok ((h.of x).setWidth 64, b.dev) := by
  obtain ⟨f, hf, hsettled⟩ := board_settled hmade hrun
  refine ⟨?_, b.dev.ctrl r, read_whole b.dev r, read_half b.dev r⟩
  intro h v a₁ a₂ a s₁ s₂ t h₁ h₂ ht
  rw [write_half] at h₁ h₂
  rw [write_whole] at ht
  have hrcc : ∀ a' : Around, (a'.withRcc b.rcc).rcc = (a.withRcc b.rcc).rcc := fun _ => rfl
  exact ctrlWrite_halves hsettled hf (hrcc a₁) (hrcc a₂) r h h₁ h₂ ht

/-- The divisor for 19200 baud, by its halves, the high one first. -/
theorem halves_compose_brr : ∃ b₀ b s₁ s₂ t, Stm32Uart.board = .ok b₀ ∧
    run (Board.step (client .shipped .UART1 true 0) zeroHost 1) b₀
      [.rcc ready Access.reset, .rcc ready (Access.write 0x18 0x4000 4),
        .dev ready (.write 0x08 69 4)] = .ok b ∧
    b.dev.write .shipped (ready.withRcc b.rcc) 0x0a 0 2 = .ok s₁ ∧
    s₁.write .shipped (ready.withRcc b.rcc) 0x08 417 2 = .ok s₂ ∧
    b.dev.write .shipped (ready.withRcc b.rcc) 0x08 417 4 = .ok t ∧ s₂ = t ∧ t.BRR = 417 := by
  have h : Post (fun b₀ => Post (fun b =>
      Post (fun s₁ => Post (fun _ => True) (fun _ => False)
        (s₁.write .shipped (ready.withRcc b.rcc) 0x08 417 2)) (fun _ => False)
        (b.dev.write .shipped (ready.withRcc b.rcc) 0x0a 0 2) ∧
      Post (fun t => t.BRR = 417) (fun _ => False)
        (b.dev.write .shipped (ready.withRcc b.rcc) 0x08 417 4)) (fun _ => False)
      (run (Board.step (client .shipped .UART1 true 0) zeroHost 1) b₀
        [.rcc ready Access.reset, .rcc ready (Access.write 0x18 0x4000 4),
          .dev ready (.write 0x08 69 4)])) (fun _ => False) Stm32Uart.board := by
    decide +kernel
  obtain ⟨b₀, hb₀, h⟩ := post_ok.1 h
  obtain ⟨b, hb, hhalves, hwhole⟩ := post_ok.1 h
  obtain ⟨s₁, hs₁, h⟩ := post_ok.1 hhalves
  obtain ⟨s₂, hs₂, -⟩ := post_ok.1 h
  obtain ⟨t, ht, hBRR⟩ := post_ok.1 hwhole
  have hst := (halves_compose (board_made hb₀) hb .BRR).1 .high 417 ready ready ready s₁ s₂ t hs₁ hs₂ ht
  exact ⟨b₀, b, s₁, s₂, t, hb₀, hb, hs₁, hs₂, ht, hst, hBRR⟩

end Bluepill
