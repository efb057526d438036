/-
  External interrupts (`hw/gpio/stm32_exti.c`).

  The controller has twenty lines and ten outputs to the NVIC; the levels last
  driven on the outputs are part of the state.  Lines 5 to 9 and lines 10 to 15
  share an output each.

  Seen from the outside, the lines are flags that share outputs (`WiredOr.Bank`):
  an operation sets or clears the pending bits of some lines, one by one
  (`bank_step`).  So the outputs are right as long as no operation clears one
  line and leaves another pending on the same output (`irqOk_iff`).
-/
import Bluepill.Lib.WiredOr
import Bluepill.Qemu
import Mathlib.Data.List.Basic

namespace Bluepill

def EXTI_LINE_COUNT : ℕ := 20
def EXTI_IRQ_COUNT : ℕ := 10

/-- `struct Stm32Exti`; `irq` are the levels last driven. -/
structure Stm32Exti where
  IMR : BitVec 32
  RTSR : BitVec 32
  FTSR : BitVec 32
  SWIER : BitVec 32
  PR : BitVec 32
  irq : ℕ → Bool

namespace Stm32Exti

/-- The state at power-on. -/
def init : Stm32Exti where
  IMR := 0
  RTSR := 0
  FTSR := 0
  SWIER := 0
  PR := 0
  irq _ := false

/-- The output that a line drives. -/
def irqOf (pos : ℕ) : Option ℕ :=
  if pos ≤ 4 then some pos
  else if pos ≤ 9 then some 5
  else if pos ≤ 15 then some 6
  else if pos = 16 then some 7
  else if pos = 17 then some 8
  else if pos = 18 then some 9
  else none

/-- `stm32_exti_change_EXTI_PR_bit`. -/
def changePrBit (s : Stm32Exti) (pos : ℕ) (newBitValue : BitVec 32) : Except Fault Stm32Exti := do
  assert (newBitValue = 0 ∨ newBitValue = 1)
  assert (pos < EXTI_LINE_COUNT)
  let oldBitValue := extract32 s.PR pos 1
  if newBitValue ≠ oldBitValue then
    match irqOf pos with
    | some i =>
      .ok { s with
        SWIER := if newBitValue = 0 then s.SWIER &&& ~~~(1#32 <<< pos) else s.SWIER
        irq := Function.update s.irq i (newBitValue != 0)
        PR := deposit32 s.PR pos 1 newBitValue }
    | none => .error .assertion
  else .ok s

/-- `stm32_exti_trigger`. -/
def trigger (s : Stm32Exti) (line : ℕ) : Except Fault Stm32Exti :=
  if Word.bitSet s.IMR line then s.changePrBit line 1 else .ok s

/-- `stm32_exti_gpio_in_handler`. -/
def gpioInHandler (s : Stm32Exti) (pin : ℕ) (level : Bool) : Except Fault Stm32Exti := do
  assert (pin < 16)
  if (level && Word.bitSet s.RTSR pin) || (!level && Word.bitSet s.FTSR pin) then s.trigger pin
  else .ok s

/-- The trigger selection registers. -/
inductive Tsr where
  | rising | falling
  deriving DecidableEq

def tsr (s : Stm32Exti) : Tsr → BitVec 32
  | .rising => s.RTSR
  | .falling => s.FTSR

def setTsr (s : Stm32Exti) (r : Tsr) (v : BitVec 32) : Stm32Exti :=
  match r with
  | .rising => { s with RTSR := v }
  | .falling => { s with FTSR := v }

/-- `update_TSR_bit`. -/
def updateTsrBit (s : Stm32Exti) (r : Tsr) (pos : ℕ) (newBitValue : BitVec 32) :
    Except Fault Stm32Exti := do
  assert (newBitValue = 0 ∨ newBitValue = 1)
  assert (pos < EXTI_LINE_COUNT)
  let s ← if newBitValue ≠ extract32 (s.tsr r) pos 1 then s.changePrBit pos 0 else .ok s
  .ok (s.setTsr r (deposit32 (s.tsr r) pos 1 newBitValue))

/-- A write to `EXTI_SWIER`, for one line. -/
def swierBit (s : Stm32Exti) (pos : ℕ) (bitValue : BitVec 32) : Except Fault Stm32Exti :=
  if bitValue = 1 then
    if Word.bitSet s.SWIER pos = false then
      trigger { s with SWIER := s.SWIER ||| (1#32 <<< pos) } pos
    else .ok s
  else .ok s

/-- A write to `EXTI_PR`, for one line: a `1` clears the bit. -/
def prBit (s : Stm32Exti) (pos : ℕ) (bitValue : BitVec 32) : Except Fault Stm32Exti :=
  if bitValue = 1 then s.changePrBit pos 0 else .ok s

/-- `stm32_exti_read`. -/
def read (s : Stm32Exti) (offset size : ℕ) : Except Fault (BitVec 64) := do
  assert (size = 4)
  match offset with
  | 0x00 => .ok (s.IMR.setWidth 64)
  | 0x08 => .ok (s.RTSR.setWidth 64)
  | 0x0c => .ok (s.FTSR.setWidth 64)
  | 0x10 => .ok (s.SWIER.setWidth 64)
  | 0x14 => .ok (s.PR.setWidth 64)
  | _ => .ok 0

/-- `stm32_exti_write`. -/
def write (s : Stm32Exti) (offset : ℕ) (value : BitVec 64) (size : ℕ) : Except Fault Stm32Exti := do
  assert (size = 4)
  if offset ≤ 0x04 then
    match offset with
    | 0x00 => .ok { s with IMR := value.setWidth 32 }
    | _ => .ok s
  else
    (List.range EXTI_LINE_COUNT).foldlM (fun s pos =>
      let bitValue := extract32 (value.setWidth 32) pos 1
      match offset with
      | 0x08 => s.updateTsrBit .rising pos bitValue
      | 0x0c => s.updateTsrBit .falling pos bitValue
      | 0x10 => s.swierBit pos bitValue
      | 0x14 => s.prBit pos bitValue
      | _ => .ok s) s

/-- `stm32_exti_reset`. -/
def reset (s : Stm32Exti) : Stm32Exti := { s with IMR := 0, RTSR := 0, FTSR := 0, SWIER := 0, PR := 0 }

/-- What can happen to the controller. -/
inductive Op where
  | write (offset : ℕ) (value : BitVec 64) (size : ℕ)
  | gpioIn (pin : ℕ) (level : Bool)
  | reset

def step (s : Stm32Exti) : Op → Except Fault Stm32Exti
  | .write offset value size => s.write offset value size
  | .gpioIn pin level => s.gpioInHandler pin level
  | .reset => .ok s.reset

/-! ## Lines and outputs -/

open WiredOr

/-- The output that a line shares with others. -/
def group (pos : ℕ) : ℕ := (irqOf pos).getD EXTI_IRQ_COUNT

/-- The pending bits and the outputs. -/
def bank (s : Stm32Exti) : Bank ℕ ℕ := ⟨s.PR.getLsbD, s.irq⟩

/-- Only lines with an output are ever pending. -/
structure Wf (s : Stm32Exti) : Prop where
  pr : ∀ pos, 19 ≤ pos → s.PR.getLsbD pos = false
  irq : ∀ i, 10 ≤ i → s.irq i = false

/-- `t` is `s` with the pending bit of line `pos` changed to `b`, if need be. -/
structure Changed (s t : Stm32Exti) (pos : ℕ) (b : Bool) : Prop where
  wf : t.Wf
  bank : t.bank = change group b s.bank pos
  IMR : t.IMR = s.IMR
  tsr : ∀ r, t.tsr r = s.tsr r
  SWIER : ∀ p ≠ pos, t.SWIER.getLsbD p = s.SWIER.getLsbD p

variable {s t : Stm32Exti} {pos : ℕ} {b : Bool}

theorem irqOf_bounds {i : ℕ} (h : irqOf pos = some i) : pos < 19 ∧ i < 10 := by
  unfold irqOf at h
  split_ifs at h <;> simp only [Option.some.injEq] at h <;> omega

/-- A bit as a number. -/
abbrev bit (b : Bool) : BitVec 32 := if b then 1#32 else 0#32

theorem bit_ne_bit {b c : Bool} : bit b ≠ bit c ↔ c ≠ b := by
  cases b <;> cases c <;> decide

theorem getLsbD_bit_ne {p : ℕ} (h : p ≠ pos) : (1#32 <<< pos).getLsbD p = false := by
  rw [← BitVec.twoPow_eq, BitVec.getLsbD_twoPow]; simp [Ne.symm h]

theorem getLsbD_and_not_bit (v : BitVec 32) {p : ℕ} (h : p ≠ pos) :
    (v &&& ~~~(1#32 <<< pos)).getLsbD p = v.getLsbD p := by
  by_cases hp : p < 32
  · rw [BitVec.getLsbD_and, BitVec.getLsbD_not, getLsbD_bit_ne h]; simp [hp]
  · rw [BitVec.getLsbD_of_ge _ p (by omega), BitVec.getLsbD_of_ge v p (by omega)]

/-- A change of a pending bit that does not fail. -/
theorem changePrBit_ok (ho : s.changePrBit pos (bit b) = .ok t) :
    pos < 20 ∧ (s.PR.getLsbD pos = b ∧ t = s ∨ s.PR.getLsbD pos ≠ b ∧ ∃ i, irqOf pos = some i ∧
      t = { s with
        SWIER := if bit b = 0 then s.SWIER &&& ~~~(1#32 <<< pos) else s.SWIER
        irq := Function.update s.irq i (bit b != 0)
        PR := deposit32 s.PR pos 1 (bit b) }) := by
  obtain ⟨-, ho⟩ := assert_bind.1 ho
  obtain ⟨hpos : pos < 20, ho⟩ := assert_bind.1 ho
  refine ⟨hpos, ?_⟩
  dsimp only at ho
  have hold : extract32 s.PR pos 1 = bit (s.PR.getLsbD pos) := Word.extract_one s.PR (by omega)
  rw [hold] at ho
  by_cases hb : s.PR.getLsbD pos = b
  · rw [if_neg (by rw [bit_ne_bit]; simpa using hb)] at ho
    cases ho
    exact Or.inl ⟨hb, rfl⟩
  · rw [if_pos (bit_ne_bit.2 hb)] at ho
    cases hi : irqOf pos with
    | none => rw [hi] at ho; cases ho
    | some i =>
      rw [hi] at ho
      cases ho
      exact Or.inr ⟨hb, i, rfl, rfl⟩

theorem changePrBit_spec (h : s.Wf) (ho : s.changePrBit pos (bit b) = .ok t) :
    Changed s t pos b := by
  obtain ⟨hpos, ⟨hb, rfl⟩ | ⟨hb, i, hi, rfl⟩⟩ := changePrBit_ok ho
  · exact ⟨h, (if_pos hb).symm, rfl, fun _ => rfl, fun _ _ => rfl⟩
  · obtain ⟨hp19, hi10⟩ := irqOf_bounds hi
    have hPR : (deposit32 s.PR pos 1 (bit b)).getLsbD = Function.update s.PR.getLsbD pos b :=
      Word.getLsbD_deposit_one s.PR (by omega) b
    have hbit : (bit b != 0) = b := by cases b <;> rfl
    have hg : group pos = i := by rw [group, hi]; rfl
    refine ⟨⟨fun p hp => ?_, fun j hj => ?_⟩, ?_, rfl, fun r => by cases r <;> rfl, fun p hp => ?_⟩
    · rw [hPR, Function.update_of_ne (by omega), h.pr p hp]
    · exact (Function.update_of_ne (by omega) _ _).trans (h.irq j hj)
    · rw [bank, hPR, hbit, change, if_neg (show ¬ s.bank.flag pos = b from hb), hg]; rfl
    · dsimp only
      split
      · exact getLsbD_and_not_bit s.SWIER hp
      · rfl

/-! ## Operations as changes -/

/-- The lines an operation may change, and the value it gives to their pending
    bits. -/
def Op.changes (s : Stm32Exti) : Op → List ℕ × Bool
  | .write 0x08 v _ => ((List.range 20).filter fun p => v.getLsbD p != s.RTSR.getLsbD p, false)
  | .write 0x0c v _ => ((List.range 20).filter fun p => v.getLsbD p != s.FTSR.getLsbD p, false)
  | .write 0x10 v _ =>
    ((List.range 20).filter fun p => v.getLsbD p && !s.SWIER.getLsbD p && s.IMR.getLsbD p, true)
  | .write 0x14 v _ => ((List.range 20).filter fun p => v.getLsbD p, false)
  | .write _ _ _ => ([], false)
  | .gpioIn pin level =>
    (if (if level then s.RTSR else s.FTSR).getLsbD pin && s.IMR.getLsbD pin then [pin] else [], true)
  | .reset => ([], false)

theorem trigger_spec (h : s.Wf) (hpos : pos < 32) (ho : s.trigger pos = .ok t) :
    if s.IMR.getLsbD pos then Changed s t pos true else t = s := by
  rw [trigger, Word.bitSet_eq _ hpos] at ho
  split at ho
  · rename_i hm; rw [if_pos hm]; exact changePrBit_spec (b := true) h ho
  · rename_i hm; rw [if_neg hm]; cases ho; rfl

/-- A loop over the lines, each of which changes if it satisfies `q`. -/
theorem loop_spec {f : Stm32Exti → ℕ → Except Fault Stm32Exti} {q : ℕ → Bool}
    {J : Stm32Exti → ℕ → Prop}
    (hf : ∀ s pos t, pos < 20 → s.Wf → J s pos → f s pos = .ok t → t.Wf ∧
      t.bank = (if q pos then change group b s.bank pos else s.bank) ∧
        ∀ p ≠ pos, J s p → J t p)
    (h : s.Wf) (hJ : ∀ p, J s p) (ho : (List.range EXTI_LINE_COUNT).foldlM f s = .ok t) :
    t.Wf ∧ t.bank = ((List.range 20).filter q).foldl (change group b) s.bank := by
  rw [List.foldl_filter]
  have hstep : ∀ s pos l t, (s.Wf ∧ (pos :: l).Nodup ∧ ∀ p ∈ pos :: l, p < 20 ∧ J s p) →
      f s pos = .ok t → (t.Wf ∧ l.Nodup ∧ ∀ p ∈ l, p < 20 ∧ J t p) ∧
        t.bank = if q pos then change group b s.bank pos else s.bank := by
    rintro s pos l t ⟨hs, hn, hl⟩ ht
    obtain ⟨hpos, hJ⟩ := hl pos (by simp)
    obtain ⟨hw, hb, hJ'⟩ := hf s pos t hpos hs hJ ht
    refine ⟨⟨hw, (List.nodup_cons.1 hn).2, fun p hp => ?_⟩, hb⟩
    obtain ⟨hp20, hJp⟩ := hl p (by simp [hp])
    refine ⟨hp20, hJ' p ?_ hJp⟩
    rintro rfl
    exact (List.nodup_cons.1 hn).1 hp
  obtain ⟨hJt, hV⟩ := Machine.foldlM_sim (V := bank) (g := fun x p => if q p then change group b x p else x)
    (J := fun s l => s.Wf ∧ l.Nodup ∧ ∀ p ∈ l, p < 20 ∧ J s p) hstep
    ⟨h, List.nodup_range, fun p hp => ⟨List.mem_range.1 hp, hJ p⟩⟩ ho
  exact ⟨hJt.1, hV⟩

theorem bit_eq_one {b : Bool} : bit b = 1 ↔ b = true := by cases b <;> decide

theorem extract_value (value : BitVec 64) (hpos : pos < 20) :
    extract32 (value.setWidth 32) pos 1 = bit (value.getLsbD pos) := by
  rw [extract32, Word.extract_one _ (by omega)]
  simp [show pos < 32 by omega]

theorem tsr_setTsr (s : Stm32Exti) (r r' : Tsr) (v : BitVec 32) :
    (s.setTsr r v).tsr r' = if r' = r then v else s.tsr r' := by
  cases r <;> cases r' <;> rfl

theorem prWrite_spec {value : BitVec 64} (h : s.Wf)
    (ho : (List.range EXTI_LINE_COUNT).foldlM
      (fun s pos => s.prBit pos (extract32 (value.setWidth 32) pos 1)) s = .ok t) :
    t.Wf ∧ t.bank = ((List.range 20).filter fun p => value.getLsbD p).foldl (change group false)
      s.bank := by
  refine loop_spec (J := fun _ _ => True) ?_ h (fun _ => trivial) ho
  intro s pos t hpos hs _ ht
  rw [extract_value value hpos, prBit] at ht
  by_cases hv : value.getLsbD pos
  · rw [if_pos (bit_eq_one.2 hv)] at ht
    have hc := changePrBit_spec (b := false) hs ht
    exact ⟨hc.wf, by rw [if_pos hv, hc.bank], fun _ _ _ => trivial⟩
  · rw [if_neg (fun h1 => hv (bit_eq_one.1 h1))] at ht
    cases ht
    exact ⟨hs, by rw [if_neg hv], fun _ _ _ => trivial⟩

theorem updateTsrBit_spec {r : Tsr} {v : Bool} (h : s.Wf) (hpos : pos < 20)
    (ho : s.updateTsrBit r pos (bit v) = .ok t) :
    t.Wf ∧ t.bank = (if v != (s.tsr r).getLsbD pos then change group false s.bank pos else s.bank) ∧
      ∀ p ≠ pos, (t.tsr r).getLsbD p = (s.tsr r).getLsbD p := by
  obtain ⟨-, ho⟩ := assert_bind.1 ho
  obtain ⟨-, ho⟩ := assert_bind.1 ho
  have hset : ∀ (u : Stm32Exti) (w : BitVec 32), (u.setTsr r w).bank = u.bank ∧ (u.Wf → (u.setTsr r w).Wf) := by
    intro u w; cases r <;> exact ⟨rfl, fun h => ⟨h.pr, h.irq⟩⟩
  have htsr : ∀ (u : Stm32Exti), ∀ p ≠ pos,
      ((u.setTsr r (deposit32 (u.tsr r) pos 1 (bit v))).tsr r).getLsbD p = (u.tsr r).getLsbD p := by
    intro u p hp
    have hdep := Word.getLsbD_deposit_one (u.tsr r) (show pos < 32 by omega) v
    rw [tsr_setTsr, if_pos rfl]
    exact (congrFun hdep p).trans (Function.update_of_ne hp _ _)
  have hold : extract32 (s.tsr r) pos 1 = bit ((s.tsr r).getLsbD pos) :=
    Word.extract_one (s.tsr r) (by omega)
  dsimp only at ho
  rw [hold] at ho
  by_cases hv : (s.tsr r).getLsbD pos = v
  · rw [if_neg (by rw [bit_ne_bit]; simpa using hv)] at ho
    cases ho
    exact ⟨(hset s _).2 h, by rw [(hset s _).1, if_neg (by simp [hv])], htsr s⟩
  · rw [if_pos (bit_ne_bit.2 hv)] at ho
    obtain ⟨u, hu, ho⟩ := Machine.bind_eq_ok.1 ho
    cases ho
    have hc := changePrBit_spec (b := false) h hu
    refine ⟨(hset u _).2 hc.wf, ?_, fun p hp => (htsr u p hp).trans (by rw [hc.tsr])⟩
    rw [(hset u _).1, if_pos (by simpa using Ne.symm hv), hc.bank]

theorem tsrWrite_spec {r : Tsr} {value : BitVec 64} (h : s.Wf)
    (ho : (List.range EXTI_LINE_COUNT).foldlM
      (fun s pos => s.updateTsrBit r pos (extract32 (value.setWidth 32) pos 1)) s = .ok t) :
    t.Wf ∧ t.bank = ((List.range 20).filter fun p => value.getLsbD p != (s.tsr r).getLsbD p).foldl
      (change group false) s.bank := by
  refine loop_spec (J := fun u p => (u.tsr r).getLsbD p = (s.tsr r).getLsbD p) ?_ h (fun _ => rfl) ho
  intro u pos v hpos hu hJ hv
  rw [extract_value value hpos] at hv
  obtain ⟨hw, hb, htsr⟩ := updateTsrBit_spec hu hpos hv
  rw [hJ] at hb
  exact ⟨hw, hb, fun p hp hJp => (htsr p hp).trans hJp⟩

theorem swierBit_spec {v : Bool} (h : s.Wf) (hpos : pos < 20) (ho : s.swierBit pos (bit v) = .ok t) :
    t.Wf ∧ t.bank = (if v && !s.SWIER.getLsbD pos && s.IMR.getLsbD pos then
      change group true s.bank pos else s.bank) ∧ t.IMR = s.IMR ∧
      ∀ p ≠ pos, t.SWIER.getLsbD p = s.SWIER.getLsbD p := by
  rw [swierBit, Word.bitSet_eq _ (show pos < 32 by omega)] at ho
  by_cases hv : v && !s.SWIER.getLsbD pos
  · obtain ⟨rfl, hs0⟩ : v = true ∧ s.SWIER.getLsbD pos = false := by simpa using hv
    rw [if_pos (show bit true = 1 from rfl), if_pos hs0] at ho
    have hor : ∀ p ≠ pos, (s.SWIER ||| (1#32 <<< pos)).getLsbD p = s.SWIER.getLsbD p := by
      intro p hp; rw [BitVec.getLsbD_or, getLsbD_bit_ne hp, Bool.or_false]
    have htr := trigger_spec (s := { s with SWIER := s.SWIER ||| (1#32 <<< pos) }) ⟨h.pr, h.irq⟩
      (by omega) ho
    rw [hv, Bool.true_and]
    split at htr
    · rename_i hm
      exact ⟨htr.wf, by rw [if_pos hm, htr.bank]; rfl, htr.IMR, fun p hp => (htr.SWIER p hp).trans (hor p hp)⟩
    · rename_i hm
      subst htr
      exact ⟨⟨h.pr, h.irq⟩, by rw [if_neg hm]; rfl, rfl, hor⟩
  · have ht : t = s := by
      cases hs : s.SWIER.getLsbD pos with
      | true => rw [hs] at ho; split at ho <;> cases ho <;> rfl
      | false =>
        have hv0 : v = false := by simpa [hs] using hv
        subst hv0; cases ho; rfl
    subst ht
    exact ⟨h, by rw [if_neg (by simp [hv])], rfl, fun _ _ => rfl⟩

theorem swierWrite_spec {value : BitVec 64} (h : s.Wf)
    (ho : (List.range EXTI_LINE_COUNT).foldlM
      (fun s pos => s.swierBit pos (extract32 (value.setWidth 32) pos 1)) s = .ok t) :
    t.Wf ∧ t.bank = ((List.range 20).filter fun p =>
      value.getLsbD p && !s.SWIER.getLsbD p && s.IMR.getLsbD p).foldl (change group true) s.bank := by
  refine loop_spec (J := fun u p => u.SWIER.getLsbD p = s.SWIER.getLsbD p ∧ u.IMR = s.IMR) ?_ h
    (fun _ => ⟨rfl, rfl⟩) ho
  rintro u pos t hpos hu ⟨hsw, him⟩ ht
  rw [extract_value value hpos] at ht
  obtain ⟨hw, hb, him', hsw'⟩ := swierBit_spec hu hpos ht
  rw [hsw, him] at hb
  exact ⟨hw, hb, fun p hp h => ⟨(hsw' p hp).trans h.1, him'.trans h.2⟩⟩

/-- **Every operation but the reset changes the pending bits of some lines to one
    value, one by one.** -/
theorem bank_step {o : Op} (h : s.Wf) (hr : o ≠ .reset) (ho : s.step o = .ok t) :
    t.Wf ∧ t.bank = (o.changes s).1.foldl (change group (o.changes s).2) s.bank := by
  cases o with
  | write offset value size =>
    obtain ⟨-, ho⟩ := assert_bind.1 ho
    by_cases h8 : offset = 0x08
    · subst h8; exact tsrWrite_spec (r := .rising) h ho
    by_cases hc : offset = 0x0c
    · subst hc; exact tsrWrite_spec (r := .falling) h ho
    by_cases h10 : offset = 0x10
    · subst h10; exact swierWrite_spec h ho
    by_cases h14 : offset = 0x14
    · subst h14; exact prWrite_spec h ho
    have hnone : Op.changes s (.write offset value size) = ([], false) := by
      unfold Op.changes; split <;> simp_all
    have ht : t.PR = s.PR ∧ t.irq = s.irq := by
      by_cases h4 : offset ≤ 0x04
      · rw [if_pos h4] at ho
        split at ho <;> cases ho <;> exact ⟨rfl, rfl⟩
      · rw [if_neg h4] at ho
        simp only at ho
        cases ho; exact ⟨rfl, rfl⟩
    rw [hnone]
    exact ⟨⟨ht.1 ▸ h.pr, ht.2 ▸ h.irq⟩, by rw [bank, ht.1, ht.2]; rfl⟩
  | gpioIn pin level =>
    obtain ⟨hpin, ho⟩ := assert_bind.1 ho
    rw [Word.bitSet_eq _ (show pin < 32 by omega), Word.bitSet_eq _ (show pin < 32 by omega)] at ho
    have hlevel : ((level && s.RTSR.getLsbD pin) || (!level && s.FTSR.getLsbD pin)) =
        (if level then s.RTSR else s.FTSR).getLsbD pin := by cases level <;> simp
    rw [hlevel] at ho
    simp only [Op.changes]
    by_cases hl : (if level then s.RTSR else s.FTSR).getLsbD pin
    · rw [if_pos hl] at ho
      rw [hl, Bool.true_and]
      have htr := trigger_spec h (by omega) ho
      split at htr
      · rename_i hm; rw [if_pos hm]; exact ⟨htr.wf, htr.bank⟩
      · rename_i hm; rw [if_neg hm]; exact ⟨htr ▸ h, by rw [htr]; rfl⟩
    · rw [if_neg hl] at ho
      cases ho
      rw [if_neg (by simp [hl])]; exact ⟨h, rfl⟩
  | reset => exact absurd rfl hr

/-! ## The outputs -/

/-- The lines of an output. -/
def irqLines : ℕ → List ℕ
  | 5 => [5, 6, 7, 8, 9]
  | 6 => [10, 11, 12, 13, 14, 15]
  | 7 => [16]
  | 8 => [17]
  | 9 => [18]
  | i => [i]

/-- Every output has the level of the disjunction of its lines. -/
def IrqOk (s : Stm32Exti) : Prop :=
  ∀ i < EXTI_IRQ_COUNT, s.irq i = (irqLines i).any fun pos => s.PR.getLsbD pos

theorem group_eq_iff {i : ℕ} (hi : i < 10) (hp : pos < 19) : group pos = i ↔ pos ∈ irqLines i := by
  have : ∀ i < 10, ∀ pos < 19, group pos = i ↔ pos ∈ irqLines i := by decide
  exact this i hi pos hp

theorem irqLines_lt {i : ℕ} (hi : i < 10) (hp : pos ∈ irqLines i) : pos < 19 := by
  have : ∀ i < 10, ∀ pos ∈ irqLines i, pos < 19 := by decide
  exact this i hi pos hp

theorem irqOk_iff_driven (h : s.Wf) : s.IrqOk ↔ Driven group s.bank := by
  have hlines : ∀ i < 10, ((irqLines i).any fun pos => s.PR.getLsbD pos) = true ↔
      ∃ pos, group pos = i ∧ s.PR.getLsbD pos = true := by
    intro i hi
    rw [List.any_eq_true]
    constructor
    · rintro ⟨pos, hp, hset⟩; exact ⟨pos, (group_eq_iff hi (irqLines_lt hi hp)).2 hp, hset⟩
    · rintro ⟨pos, hg, hset⟩
      have hp : pos < 19 := by
        by_contra hp
        rw [h.pr pos (by omega)] at hset; cases hset
      exact ⟨pos, (group_eq_iff hi hp).1 hg, hset⟩
  constructor
  · intro hok i
    by_cases hi : i < 10
    · change s.irq i = true ↔ ∃ pos, group pos = i ∧ s.PR.getLsbD pos = true
      rw [hok i hi, hlines i hi]
    · -- there is no such output: it is low, and the lines that would drive it are not pending
      refine iff_of_false ?_ ?_
      · change ¬ s.irq i = true
        rw [h.irq i (by omega)]; decide
      · rintro ⟨pos, hg, hset⟩
        by_cases hp : pos < 19
        · have : ∀ pos < 19, group pos < 10 := by decide
          have := this pos hp
          omega
        · exact absurd ((h.pr pos (by omega)).symm.trans hset) (by decide)
  · intro hd i hi
    rw [Bool.eq_iff_iff, hlines i hi]; exact hd i

/-- The operation clears no line without the other pending lines of its output.
    A reset clears them all, but does not drive the outputs: no line is pending. -/
def Releases (s : Stm32Exti) : Op → Prop
  | .reset => ∀ pos, s.PR.getLsbD pos = false
  | o => (o.changes s).2 = false → ∀ pos ∈ (o.changes s).1, s.PR.getLsbD pos = true →
      ∀ pos', group pos' = group pos → s.PR.getLsbD pos' = true → pos' ∈ (o.changes s).1

theorem Wf.step {o : Op} (h : s.Wf) (ho : s.step o = .ok t) : t.Wf := by
  by_cases hr : o = .reset
  · subst hr; cases ho; exact ⟨fun _ _ => BitVec.getLsbD_zero, h.irq⟩
  · exact (bank_step h hr ho).1

theorem step_irqOk {o : Op} (h : s.Wf) (hs : s.IrqOk) (ho : s.step o = .ok t) :
    t.IrqOk ↔ s.Releases o := by
  rw [irqOk_iff_driven h] at hs
  rw [irqOk_iff_driven (h.step ho)]
  by_cases hr : o = .reset
  · subst hr; cases ho
    constructor
    · intro hd pos
      by_contra hp
      have hhigh := (hs (group pos)).2 ⟨pos, rfl, Bool.eq_true_of_not_eq_false hp⟩
      obtain ⟨pos', -, hset⟩ := (hd (group pos)).1 hhigh
      exact absurd ((BitVec.getLsbD_zero).symm.trans hset) (by decide)
    · intro hp i
      refine (hs i).trans (exists_congr fun pos => and_congr_right fun _ => ?_)
      exact iff_of_false (by rw [show s.bank.flag pos = false from hp pos]; decide)
        (by rw [show s.reset.bank.flag pos = false from BitVec.getLsbD_zero]; decide)
  · obtain ⟨-, hb⟩ := bank_step h hr ho
    have hrel : s.Releases o ↔ ((o.changes s).2 = false → ∀ pos ∈ (o.changes s).1,
        s.PR.getLsbD pos = true → ∀ pos', group pos' = group pos → s.PR.getLsbD pos' = true →
          pos' ∈ (o.changes s).1) := by
      cases o <;> first | exact Iff.rfl | exact absurd rfl hr
    rw [hb, hrel]
    cases hc : (o.changes s).2 with
    | true => exact iff_of_true hs.set fun h => by cases h
    | false => rw [hs.clear_iff]; exact ⟨fun h _ => h, fun h => h rfl⟩

end Stm32Exti

open Stm32Exti

/-- **When the outputs are right throughout a run.** -/
theorem irqOk_iff {l : List Stm32Exti.Op} {u : Stm32Exti}
    (h : Machine.run Stm32Exti.step Stm32Exti.init l = .ok u) :
    (∀ t, Machine.Visits Stm32Exti.step Stm32Exti.init l t → t.IrqOk) ↔
      ∀ t o, Machine.Takes Stm32Exti.step Stm32Exti.init l t o → t.Releases o := by
  refine Machine.visits_iff_takes (I := Stm32Exti.Wf) ?_ ?_ ?_ ?_ h
  · intro t o u ht hu
    exact ht.step hu
  · intro t o u ht hs hu
    exact step_irqOk ht hs hu
  · exact ⟨fun _ _ => BitVec.getLsbD_zero, fun _ _ => rfl⟩
  · intro i _
    simp [Stm32Exti.init]

/-- Lines 5 and 6 triggered by software, and cleared together. -/
theorem irqOk_iff_together : ∃ u, Machine.run Stm32Exti.step Stm32Exti.init
    [.write 0x00 0x60 4, .write 0x10 0x60 4, .write 0x14 0x60 4] = .ok u ∧
    ∀ t, Machine.Visits Stm32Exti.step Stm32Exti.init
      [.write 0x00 0x60 4, .write 0x10 0x60 4, .write 0x14 0x60 4] t → t.IrqOk := by
  refine ⟨_, rfl, (irqOk_iff rfl).2 fun t o ht => ?_⟩
  rcases Machine.takes_cons ht with ⟨-, rfl⟩ | ⟨t₁, ht₁, ht⟩
  · rintro - pos ⟨⟩
  cases ht₁
  rcases Machine.takes_cons ht with ⟨-, rfl⟩ | ⟨t₂, ht₂, ht⟩
  · rintro ⟨⟩
  cases ht₂
  rcases Machine.takes_cons ht with ⟨rfl, rfl⟩ | ⟨t₃, -, l₁, l₂, hl, -⟩
  · have hpr : ∀ pos < 32, (0x60#32).getLsbD pos = true → pos ∈ [5, 6] := by decide
    intro _ pos _ _ pos' _ hset
    by_cases hp : pos' < 32
    · exact hpr pos' hp hset
    · exact absurd ((BitVec.getLsbD_of_ge _ _ (by omega)).symm.trans hset) (by decide)
  · simp at hl

/-- Lines 5 and 6 triggered by software, and line 5 cleared: the output they share
    goes low although line 6 is pending. -/
theorem not_irqOk_shared : ∃ u, Machine.run Stm32Exti.step Stm32Exti.init
    [.write 0x00 0x60 4, .write 0x10 0x60 4, .write 0x14 0x20 4] = .ok u ∧
    u.PR = 0x40 ∧ u.irq 5 = false ∧ ¬ u.IrqOk := by
  refine ⟨_, rfl, rfl, rfl, fun h => ?_⟩
  exact absurd (h 5 (by decide)) (by decide)

end Bluepill
