/-
  One line of the external interrupts.

  A register of the controller has a bit for each line, and an operation acts on the
  five bits of a line as if the others were not there: `Line.step` is the line by itself,
  and `step_line` says that the controller does this to each of its lines.  So two runs
  that agree on a line end with the same bits of it (`lines_independent`).
-/
import Bluepill.Exti

namespace Bluepill

/-- The bits of a line. -/
@[ext] structure Line where
  IMR : Bool
  RTSR : Bool
  FTSR : Bool
  SWIER : Bool
  PR : Bool
  deriving DecidableEq

namespace Line

open Stm32Exti

/-- A line that is cleared is no longer requested by software. -/
def changePr (b : Bool) (x : Line) : Line :=
  if x.PR = b then x else { x with PR := b, SWIER := x.SWIER && b }

def trigger (x : Line) : Line := if x.IMR then x.changePr true else x

/-- The line is triggered by edges to `level`. -/
def selects (x : Line) (level : Bool) : Bool := if level then x.RTSR else x.FTSR

def edge (level : Bool) (x : Line) : Line := if x.selects level then x.trigger else x

def tsr (x : Line) : Tsr → Bool
  | .rising => x.RTSR
  | .falling => x.FTSR

def setTsr (x : Line) (r : Tsr) (b : Bool) : Line :=
  match r with
  | .rising => { x with RTSR := b }
  | .falling => { x with FTSR := b }

def updateTsr (r : Tsr) (b : Bool) (x : Line) : Line :=
  (if b = x.tsr r then x else x.changePr false).setTsr r b

def updateSwier (b : Bool) (x : Line) : Line :=
  if b && !x.SWIER then trigger { x with SWIER := true } else x

/-- A write to a register, with the bit of the line. -/
def write (offset : ℕ) (b : Bool) (x : Line) : Line :=
  match offset with
  | 0x00 => { x with IMR := b }
  | 0x08 => x.updateTsr .rising b
  | 0x0c => x.updateTsr .falling b
  | 0x10 => x.updateSwier b
  | 0x14 => if b then x.changePr false else x
  | _ => x

/-- An operation of the controller, as line `n` sees it. -/
def step (n : ℕ) (x : Line) : Op → Line
  | .write offset value _ => x.write offset (value.getLsbD n)
  | .gpioIn pin level => if pin = n then x.edge level else x
  | .reset => ⟨false, false, false, false, false⟩

end Line

namespace Stm32Exti

/-- Line `n` of the controller. -/
def line (s : Stm32Exti) (n : ℕ) : Line :=
  ⟨s.IMR.getLsbD n, s.RTSR.getLsbD n, s.FTSR.getLsbD n, s.SWIER.getLsbD n, s.PR.getLsbD n⟩

variable {s t : Stm32Exti} {n pos : ℕ} {b : Bool}

/-- Changes that are the same for line `pos` of `s` are the same, made there. -/
theorem line_congr {g g' : Line → Line} (h : g (s.line pos) = g' (s.line pos)) :
    (if n = pos then g (s.line n) else s.line n) = if n = pos then g' (s.line n) else s.line n := by
  split
  · subst n
    exact h
  · rfl

/-- A change that does nothing to line `pos` of `s`. -/
theorem line_same {g : Line → Line} (h : g (s.line pos) = s.line pos) :
    s.line n = if n = pos then g (s.line n) else s.line n := by
  split
  · subst n
    exact h.symm
  · rfl

theorem changePrBit_line (ho : s.changePrBit pos (bit b) = .ok t) :
    t.line n = if n = pos then (s.line n).changePr b else s.line n := by
  obtain ⟨hpos, ⟨hb, rfl⟩ | ⟨hb, i, -, rfl⟩⟩ := changePrBit_ok ho
  · exact line_same (if_pos hb)
  · have hPR : (deposit32 s.PR pos 1 (bit b)).getLsbD n = Function.update s.PR.getLsbD pos b n :=
      congrFun (Word.getLsbD_deposit_one s.PR (by omega) b) n
    by_cases hn : n = pos
    · subst n
      rw [Function.update_self] at hPR
      rw [if_pos rfl, Line.changePr, if_neg (show ¬ (s.line pos).PR = b from hb)]
      have hSWIER : (if bit b = 0 then s.SWIER &&& ~~~(1#32 <<< pos) else s.SWIER).getLsbD pos =
          (s.SWIER.getLsbD pos && b) := by
        cases b
        · simp [← BitVec.twoPow_eq, show pos < 32 by omega]
        · simp
      exact Line.ext rfl rfl rfl hSWIER hPR
    · rw [Function.update_of_ne hn] at hPR
      rw [if_neg hn]
      have hSWIER : (if bit b = 0 then s.SWIER &&& ~~~(1#32 <<< pos) else s.SWIER).getLsbD n =
          s.SWIER.getLsbD n := by
        split
        · exact getLsbD_and_not_bit s.SWIER hn
        · rfl
      exact Line.ext rfl rfl rfl hSWIER hPR

theorem trigger_line (hpos : pos < 32) (ho : s.trigger pos = .ok t) :
    t.line n = if n = pos then (s.line n).trigger else s.line n := by
  rw [trigger, Word.bitSet_eq _ hpos] at ho
  split at ho
  · rename_i hm
    rw [changePrBit_line (b := true) ho]
    have htrigger : (s.line pos).trigger = (s.line pos).changePr true := if_pos hm
    exact line_congr htrigger.symm
  · rename_i hm
    cases ho
    exact line_same (if_neg hm)

theorem prBit_line (ho : s.prBit pos (bit b) = .ok t) :
    t.line n = if n = pos then (if b then (s.line n).changePr false else s.line n) else s.line n := by
  rw [prBit] at ho
  cases b with
  | true => exact changePrBit_line (b := false) ho
  | false =>
    cases ho
    exact line_same rfl

theorem line_tsr (s : Stm32Exti) (n : ℕ) (r : Tsr) : (s.line n).tsr r = (s.tsr r).getLsbD n := by
  cases r <;> rfl

theorem setTsr_line (hpos : pos < 32) (s : Stm32Exti) (r : Tsr) (b : Bool) :
    (s.setTsr r (deposit32 (s.tsr r) pos 1 (bit b))).line n =
      if n = pos then (s.line n).setTsr r b else s.line n := by
  have hdep := congrFun (Word.getLsbD_deposit_one (s.tsr r) hpos b) n
  split
  · subst n
    rw [Function.update_self] at hdep
    cases r with
    | rising => ext <;> first | rfl | exact hdep
    | falling => ext <;> first | rfl | exact hdep
  · rename_i hn
    rw [Function.update_of_ne hn] at hdep
    cases r with
    | rising => ext <;> first | rfl | exact hdep
    | falling => ext <;> first | rfl | exact hdep

theorem updateTsrBit_line {r : Tsr} (ho : s.updateTsrBit r pos (bit b) = .ok t) :
    t.line n = if n = pos then (s.line n).updateTsr r b else s.line n := by
  obtain ⟨-, ho⟩ := assert_bind.1 ho
  obtain ⟨hpos : pos < 20, ho⟩ := assert_bind.1 ho
  have hold : extract32 (s.tsr r) pos 1 = bit ((s.tsr r).getLsbD pos) :=
    Word.extract_one (s.tsr r) (by omega)
  dsimp only at ho
  rw [hold] at ho
  by_cases hb : b = (s.tsr r).getLsbD pos
  · rw [if_neg (by rw [bit_ne_bit]; simpa using hb.symm)] at ho
    cases ho
    rw [setTsr_line (by omega)]
    have hupdate : (s.line pos).updateTsr r b = (s.line pos).setTsr r b := by
      rw [Line.updateTsr, line_tsr, if_pos hb]
    exact line_congr (g := fun x => x.setTsr r b) hupdate.symm
  · rw [if_pos (bit_ne_bit.2 (Ne.symm hb))] at ho
    obtain ⟨u, hu, ho⟩ := Machine.bind_eq_ok.1 ho
    cases ho
    rw [setTsr_line (by omega), changePrBit_line (b := false) hu]
    split
    · subst n
      rw [Line.updateTsr, line_tsr, if_neg hb]
    · rfl

theorem requested_line (hpos : pos < 32) (s : Stm32Exti) :
    line { s with SWIER := s.SWIER ||| (1#32 <<< pos) } n =
      if n = pos then { s.line n with SWIER := true } else s.line n := by
  have hor : (s.SWIER ||| (1#32 <<< pos)).getLsbD n = (s.SWIER.getLsbD n || decide (pos = n)) := by
    rw [← BitVec.twoPow_eq, BitVec.getLsbD_or, BitVec.getLsbD_twoPow]
    simp [hpos]
  split
  · rename_i hn
    rw [decide_eq_true hn.symm, Bool.or_true] at hor
    ext <;> first | rfl | exact hor
  · rename_i hn
    rw [decide_eq_false (Ne.symm hn), Bool.or_false] at hor
    ext <;> first | rfl | exact hor

theorem swierBit_line (hpos : pos < 20) (ho : s.swierBit pos (bit b) = .ok t) :
    t.line n = if n = pos then (s.line n).updateSwier b else s.line n := by
  rw [swierBit, Word.bitSet_eq _ (show pos < 32 by omega)] at ho
  by_cases hb : b && !s.SWIER.getLsbD pos
  · obtain ⟨rfl, hs⟩ : b = true ∧ s.SWIER.getLsbD pos = false := by simpa using hb
    rw [if_pos (show bit true = 1 from rfl), if_pos hs] at ho
    rw [trigger_line (by omega) ho, requested_line (by omega)]
    split
    · subst n
      rw [Line.updateSwier, if_pos (show (true && !(s.line pos).SWIER) = true from hb)]
    · rfl
  · have ht : t = s := by
      cases hs : s.SWIER.getLsbD pos with
      | true =>
        rw [hs] at ho
        split at ho <;> cases ho <;> rfl
      | false =>
        have hb0 : b = false := by simpa [hs] using hb
        subst hb0
        cases ho
        rfl
    rw [ht]
    exact line_same (if_neg hb)

/-- A write to a register whose body acts on the line it is at. -/
theorem loop_line {f : Stm32Exti → ℕ → BitVec 32 → Except Fault Stm32Exti} {g : Bool → Line → Line}
    (hn : n < 20) {value : BitVec 64}
    (hf : ∀ s pos b t, pos < 20 → f s pos (bit b) = .ok t →
      t.line n = if n = pos then g b (s.line n) else s.line n)
    (ho : (List.range EXTI_LINE_COUNT).foldlM
      (fun s pos => f s pos (extract32 (value.setWidth 32) pos 1)) s = .ok t) :
    t.line n = g (value.getLsbD n) (s.line n) := by
  have hbody : ∀ (s : Stm32Exti) pos l t, (∀ p ∈ pos :: l, p < 20) →
      f s pos (extract32 (value.setWidth 32) pos 1) = .ok t → (∀ p ∈ l, p < 20) ∧
        t.line n = if pos == n then g (value.getLsbD n) (s.line n) else s.line n := by
    intro s pos l t hl ht
    have hpos : pos < 20 := hl pos (by simp)
    refine ⟨fun p hp => hl p (by simp [hp]), ?_⟩
    rw [extract_value value hpos] at ht
    rw [hf s pos _ t hpos ht]
    by_cases hp : n = pos
    · subst n
      simp
    · rw [if_neg hp, if_neg (by simpa using Ne.symm hp)]
  have hV := (Machine.foldlM_sim (V := fun s : Stm32Exti => s.line n)
    (g := fun x pos => if pos == n then g (value.getLsbD n) x else x)
    (J := fun _ l => ∀ p ∈ l, p < 20) hbody (fun p hp => List.mem_range.1 hp) ho).2
  -- the line comes once in the loop
  have hfilter : ∀ n < 20, (List.range 20).filter (· == n) = [n] := by decide
  have hfold := @List.foldl_filter ℕ Line (· == n) (fun x _ => g (value.getLsbD n) x) (List.range 20)
    (s.line n)
  rw [hfilter n hn] at hfold
  exact hV.trans hfold.symm

theorem write_line {offset size : ℕ} {value : BitVec 64} (hn : n < 20)
    (ho : s.step (.write offset value size) = .ok t) :
    t.line n = (s.line n).write offset (value.getLsbD n) := by
  obtain ⟨-, ho⟩ := assert_bind.1 ho
  by_cases h0 : offset = 0x00
  · subst h0
    cases ho
    simp [line, Line.write, show n < 32 by omega]
  by_cases h8 : offset = 0x08
  · subst h8
    exact loop_line (f := fun s => s.updateTsrBit .rising) (g := Line.updateTsr .rising) hn
      (fun _ _ _ _ _ h => updateTsrBit_line h) ho
  by_cases hc : offset = 0x0c
  · subst hc
    exact loop_line (f := fun s => s.updateTsrBit .falling) (g := Line.updateTsr .falling) hn
      (fun _ _ _ _ _ h => updateTsrBit_line h) ho
  by_cases h10 : offset = 0x10
  · subst h10
    exact loop_line (f := swierBit) (g := Line.updateSwier) hn
      (fun _ _ _ _ hpos h => swierBit_line hpos h) ho
  by_cases h14 : offset = 0x14
  · subst h14
    exact loop_line (f := prBit) (g := fun b x => if b then x.changePr false else x) hn
      (fun _ _ _ _ _ h => prBit_line h) ho
  have ht : t = s := by
    by_cases h4 : offset ≤ 0x04
    · rw [if_pos h4] at ho
      split at ho
      · exact absurd rfl h0
      · cases ho
        rfl
    · rw [if_neg h4] at ho
      simp only at ho
      cases ho
      rfl
  rw [ht]
  unfold Line.write
  split <;> simp_all

theorem gpioIn_line {pin : ℕ} {level : Bool} (hn : n < 20) (ho : s.step (.gpioIn pin level) = .ok t) :
    t.line n = if pin = n then (s.line n).edge level else s.line n := by
  obtain ⟨hpin, ho⟩ := assert_bind.1 ho
  rw [Word.bitSet_eq _ (show pin < 32 by omega), Word.bitSet_eq _ (show pin < 32 by omega)] at ho
  have hlevel : ((level && s.RTSR.getLsbD pin) || (!level && s.FTSR.getLsbD pin)) =
      (s.line pin).selects level := by
    cases level <;> simp [line, Line.selects]
  rw [hlevel] at ho
  split at ho
  · rename_i hsel
    rw [trigger_line (by omega) ho]
    by_cases hp : n = pin
    · subst n
      rw [if_pos rfl, if_pos rfl, Line.edge, if_pos hsel]
    · rw [if_neg hp, if_neg (Ne.symm hp)]
  · rename_i hsel
    cases ho
    split
    · subst n
      rw [Line.edge, if_neg hsel]
    · rfl

/-- **The controller does to each line what the operation does to the line alone.** -/
theorem step_line {o : Op} (hn : n < 20) (ho : s.step o = .ok t) : t.line n = (s.line n).step n o := by
  cases o with
  | write offset value size => exact write_line hn ho
  | gpioIn pin level => exact gpioIn_line hn ho
  | reset =>
    cases ho
    simp [line, reset, Line.step]

/-! ## Two runs -/

/-- The operations are the same for line `n`: resets, writes to the same register with the
    same bit of the line, edges that are the same if they are edges of its pin. -/
def Agree (n : ℕ) : Op → Op → Prop
  | .reset, .reset => True
  | .write offset value _, .write offset' value' _ =>
    offset = offset' ∧ value.getLsbD n = value'.getLsbD n
  | .gpioIn pin level, .gpioIn pin' level' => (pin = n ↔ pin' = n) ∧ (pin = n → level = level')
  | _, _ => False

theorem Agree.step {o o' : Op} (h : Agree n o o') (x : Line) : x.step n o = x.step n o' := by
  cases o with
  | write offset value size =>
    cases o' with
    | write offset' value' size' =>
      obtain ⟨rfl, hbit⟩ := h
      simp only [Line.step, hbit]
    | gpioIn => exact h.elim
    | reset => exact h.elim
  | gpioIn pin level =>
    cases o' with
    | write => exact h.elim
    | gpioIn pin' level' =>
      obtain ⟨hpin, hlevel⟩ := h
      by_cases hp : pin = n
      · simp only [Line.step, if_pos hp, if_pos (hpin.1 hp), hlevel hp]
      · simp only [Line.step, if_neg hp, if_neg (mt hpin.2 hp)]
    | reset => exact h.elim
  | reset =>
    cases o' with
    | write => exact h.elim
    | gpioIn => exact h.elim
    | reset => rfl

end Stm32Exti

open Stm32Exti in
/-- **The lines do not interfere.**  Two runs from a reset that agree on a line, step by
    step, end with the same bits of the line. -/
theorem lines_independent {n : ℕ} (hn : n ≤ 18) {s s' u u' : Stm32Exti} {l l' : List Stm32Exti.Op}
    (hl : List.Forall₂ (Agree n) l l') (h : Machine.run Stm32Exti.step s.reset l = .ok u)
    (h' : Machine.run Stm32Exti.step s'.reset l' = .ok u') :
    u.IMR.getLsbD n = u'.IMR.getLsbD n ∧ u.RTSR.getLsbD n = u'.RTSR.getLsbD n ∧
      u.FTSR.getLsbD n = u'.FTSR.getLsbD n ∧ u.SWIER.getLsbD n = u'.SWIER.getLsbD n ∧
      u.PR.getLsbD n = u'.PR.getLsbD n := by
  have hstep : ∀ (s s' : Stm32Exti) o o' t t', s.line n = s'.line n → Agree n o o' →
      s.step o = .ok t → s'.step o' = .ok t' → t.line n = t'.line n := by
    intro s s' o o' t t' hs ho ht ht'
    rw [step_line (by omega) ht, step_line (by omega) ht', hs, ho.step]
  have hline : u.line n = u'.line n :=
    Machine.run_unwinding (V := fun s : Stm32Exti => s.line n) hstep hl
      (show s.reset.line n = s'.reset.line n from rfl) h h'
  exact ⟨congrArg Line.IMR hline, congrArg Line.RTSR hline, congrArg Line.FTSR hline,
    congrArg Line.SWIER hline, congrArg Line.PR hline⟩

open Stm32Exti in
/-- Line 3 is unmasked and requested by software, with other lines in one run, and by
    itself in the other. -/
theorem lines_independent_three : ∃ u u',
    Machine.run Stm32Exti.step Stm32Exti.init.reset
      [.write 0x00 0xffff 4, .gpioIn 5 true, .write 0x10 0x2c 4] = .ok u ∧
    Machine.run Stm32Exti.step Stm32Exti.init.reset
      [.write 0x00 0x8 4, .gpioIn 7 false, .write 0x10 0x8 4] = .ok u' ∧
    u.PR.getLsbD 3 = true ∧ u'.PR.getLsbD 3 = true := by
  have hagree : List.Forall₂ (Agree 3)
      [.write 0x00 0xffff 4, .gpioIn 5 true, .write 0x10 0x2c 4]
      [.write 0x00 0x8 4, .gpioIn 7 false, .write 0x10 0x8 4] := by
    simp [Agree]
  have h : Machine.run Stm32Exti.step Stm32Exti.init.reset
      [.write 0x00 0xffff 4, .gpioIn 5 true, .write 0x10 0x2c 4] = .ok _ := rfl
  have h' : Machine.run Stm32Exti.step Stm32Exti.init.reset
      [.write 0x00 0x8 4, .gpioIn 7 false, .write 0x10 0x8 4] = .ok _ := rfl
  exact ⟨_, _, h, h', rfl, (lines_independent (by decide) hagree h h').2.2.2.2.symm⟩

end Bluepill
