/-
  The levels a port drives on its output lines.

  `driven` are the calls of `qemu_set_irq` and `qemu_irq_lower` that an operation makes, in
  order; the levels of the port are what these calls leave (`run_outIrq`).  A write to `ODR`,
  `BSRR` or `BRR` is one write to the bits of `ODR`, and drives the output lines of the bits
  that change.  The calls depend on the value only in the half that is left in `ODR`.

  So the writes determine each bit of `ODR`, and the bit determines the levels driven on its
  line: they are its successive values, without repetitions (`output_trace`).
-/
import Bluepill.Gpio
import Mathlib.Data.List.Destutter

namespace Bluepill

namespace Stm32Gpio

variable {s t u : Stm32Gpio} {n : ℕ} {o : Op}

/-! ## The calls that drive a line -/

/-- The levels an operation drives, on which pins: those for the value that a write leaves in `ODR`, and those of
    a reset. -/
def driven (s : Stm32Gpio) : Op → List (ℕ × Bool)
  | .write offset value size => (s.write offset value size).toOption.elim [] fun t => s.odrDriven t.ODR
  | .inTrigger _ _ => []
  | .reset => resetDriven

/-- The levels of pin `n` among them. -/
def levels (n : ℕ) (l : List (ℕ × Bool)) : List Bool := (l.filter (·.1 = n)).map (·.2)

theorem levels_append (n : ℕ) (l l' : List (ℕ × Bool)) :
    levels n (l ++ l') = levels n l ++ levels n l' := by
  simp [levels]

/-- One call for each pin that satisfies `c`. -/
theorem levels_map_filter {l : List ℕ} (hl : l.Nodup) (hn : n ∈ l) (c f : ℕ → Bool) :
    levels n ((l.filter c).map fun pin => (pin, f pin)) = if c n then [f n] else [] := by
  have hone : l.filter (· = n) = [n] := by
    rw [List.filter_eq, List.count_eq_one_of_mem hl hn]
    rfl
  have hfilter : (l.filter c).filter (· = n) = if c n then [n] else [] := by
    rw [List.filter_comm, hone]
    cases hc : c n <;> simp [hc]
  rw [levels, List.filter_map, List.map_map]
  refine (congrArg (List.map f) hfilter).trans ?_
  cases c n <;> rfl

theorem driven_write {offset size : ℕ} {value : BitVec 64} (ht : s.write offset value size = .ok t) :
    s.driven (.write offset value size) = s.odrDriven t.ODR := by
  rw [driven, ht]
  rfl

theorem odrDriven_self (s : Stm32Gpio) : s.odrDriven s.ODR = [] := by
  rw [odrDriven, BitVec.xor_self]
  exact if_neg (by simp)

/-- The value that is left in `ODR` makes the same calls. -/
theorem odrDriven_odrWrite (s : Stm32Gpio) (v : BitVec 32) : s.odrDriven (s.odrWrite v).ODR = s.odrDriven v := by
  have hlow : (s.ODR ^^^ (v &&& 0x0000ffff)).setWidth 16 = (s.ODR ^^^ v).setWidth 16 := by
    refine BitVec.eq_of_getLsbD_eq fun i hi => ?_
    have hbit : (v &&& 0x0000ffff).getLsbD i = v.getLsbD i := Word.getLsbD_and_ffff (by decide) v hi
    rw [BitVec.getLsbD_setWidth, BitVec.getLsbD_setWidth, BitVec.getLsbD_xor, BitVec.getLsbD_xor, hbit]
  show s.odrDriven (v &&& 0x0000ffff) = _
  rw [odrDriven, odrDriven, hlow, BitVec.and_assoc, BitVec.and_self]

theorem step_outIrq (ht : s.step o = .ok t) : t.outIrq = Machine.store s.outIrq (s.driven o) := by
  cases o with
  | write offset value size =>
    have hwrite : s.write offset value size = .ok t := ht
    rw [driven_write hwrite]
    obtain ⟨-, ht⟩ := assert_bind.1 ht
    split at ht
    case h_3 | h_4 | h_5 =>
      cases ht
      rw [odrDriven_odrWrite]
      rfl
    case h_1 | h_2 | h_6 =>
      cases ht
      exact congrArg (Machine.store s.outIrq) s.odrDriven_self.symm
  | inTrigger pin level =>
    obtain ⟨-, ht⟩ := assert_bind.1 ht
    cases ht
    rfl
  | reset =>
    cases ht
    rfl

/-- **The levels of a port are what the calls of a run leave.** -/
theorem run_outIrq {l : List Op} (hu : Machine.run step s l = .ok u) :
    u.outIrq = Machine.store s.outIrq (Machine.trace step driven s l) := by
  induction l generalizing s with
  | nil =>
    cases hu
    rfl
  | cons o l ih =>
    obtain ⟨t, ht, hu⟩ := Machine.run_cons_ok.1 hu
    rw [ih hu, step_outIrq ht, Machine.trace_cons driven ht l, Machine.store, Machine.store,
      Machine.store, List.foldl_append]

/-- **The levels a write to `ODR` drives on one pin:** the new value of the bit, if it changes
    and the pin is an output. -/
theorem levels_odrDriven (h : s.Wf) (v : BitVec 32) (hn : n < 16) :
    levels n (s.odrDriven v) =
      if (s.pin n).output && (s.ODR.getLsbD n ^^ v.getLsbD n) then [v.getLsbD n] else [] := by
  have hodr : (v &&& 0x0000ffff).getLsbD n = v.getLsbD n := Word.getLsbD_and_ffff (by decide) v hn
  have hmem : n ∈ List.range STM32_GPIO_PIN_COUNT := List.mem_range.2 hn
  have hchanged : ((s.ODR ^^^ v).setWidth 16 &&& s.dirMask).getLsbD n =
      ((s.pin n).output && (s.ODR.getLsbD n ^^ v.getLsbD n)) := by
    rw [BitVec.getLsbD_and, BitVec.getLsbD_setWidth, BitVec.getLsbD_xor, h n hn, decide_eq_true hn, Bool.true_and,
      Bool.and_comm]
  rw [odrDriven, ← hchanged]
  split
  case isTrue =>
    rw [levels_map_filter List.nodup_range hmem, Word.bitSet_eq _ hn, Word.bitSet_eq _ (by omega), hodr]
  case isFalse h0 =>
    rw [not_not.1 h0]
    simp [levels]

/-! ## Writes to the outputs -/

/-- The registers whose writes change `ODR`. -/
inductive OutReg where
  | odr
  | bsrr
  | brr

def OutReg.offset : OutReg → ℕ
  | .odr => 0x0c
  | .bsrr => 0x10
  | .brr => 0x14

/-- A write of `v` to the register `r`. -/
def outWrite (w : OutReg × BitVec 32) : Op := .write w.1.offset (w.2.setWidth 64) 4

/-- What a write says about bit `n` of `ODR`, if it names the pin.  A set in `BSRR` wins over a
    reset. -/
def named (n : ℕ) : OutReg × BitVec 32 → Option Bool
  | (.odr, v) => some (v.getLsbD n)
  | (.bsrr, v) =>
    if v.getLsbD n then some true else if v.getLsbD (n + 16) then some false else none
  | (.brr, v) => if v.getLsbD n then some false else none

variable {w : OutReg × BitVec 32}

theorem exists_outWrite (s : Stm32Gpio) (w : OutReg × BitVec 32) : ∃ v, s.step (outWrite w) = .ok (s.odrWrite v) := by
  rcases w with ⟨r, v⟩
  cases r with
  | odr | bsrr | brr => exact ⟨_, rfl⟩

/-- A write leaves in the bit what it says, and the old value if it does not name the pin. -/
theorem outWrite_odr (h : s.Wf) (ht : s.step (outWrite w) = .ok t) (hn : n < 16) :
    t.ODR.getLsbD n = (named n w).getD (s.ODR.getLsbD n) := by
  have hpin := congrArg Pin.odr ((pin_step h ht).2 n hn)
  refine hpin.trans ?_
  rcases w with ⟨r, v⟩
  have hv : ∀ k < 32, (v.setWidth 64).getLsbD k = v.getLsbD k := by
    intro k hk
    rw [BitVec.getLsbD_setWidth, decide_eq_true (show k < 64 by omega), Bool.true_and]
  cases r with
  | odr => exact hv n (by omega)
  | bsrr =>
    change ((s.ODR.getLsbD n && !(v.setWidth 64).getLsbD (n + 16)) || (v.setWidth 64).getLsbD n) = _
    rw [hv n (by omega), hv (n + 16) (by omega), named]
    cases v.getLsbD n <;> cases v.getLsbD (n + 16) <;> simp
  | brr =>
    change (s.ODR.getLsbD n && !(v.setWidth 64).getLsbD n) = _
    rw [hv n (by omega), named]
    cases v.getLsbD n <;> simp

theorem outWrite_output (h : s.Wf) (ht : s.step (outWrite w) = .ok t) (hn : n < 16) :
    (t.pin n).output = (s.pin n).output := by
  obtain ⟨v, hv⟩ := exists_outWrite s w
  rw [ht] at hv
  cases hv
  rw [pin_odrWrite h v hn]
  rfl

/-- The levels such a write drives on one pin. -/
theorem levels_outWrite (h : s.Wf) (ht : s.step (outWrite w) = .ok t) (hn : n < 16) :
    levels n (s.driven (outWrite w)) =
      if (s.pin n).output && (s.ODR.getLsbD n ^^ t.ODR.getLsbD n) then [t.ODR.getLsbD n] else [] := by
  rw [outWrite, driven_write ht]
  exact levels_odrDriven h t.ODR hn

/-! ## Sequences of writes -/

variable {ws : List (OutReg × BitVec 32)}

theorem exists_run_outWrite (ws : List (OutReg × BitVec 32)) :
    ∀ s : Stm32Gpio, ∃ u, Machine.run step s (ws.map outWrite) = .ok u := by
  induction ws with
  | nil => exact fun s => ⟨s, rfl⟩
  | cons w ws ih =>
    intro s
    obtain ⟨v, hv⟩ := exists_outWrite s w
    obtain ⟨u, hu⟩ := ih (s.odrWrite v)
    exact ⟨u, Machine.run_cons_ok.2 ⟨_, hv, hu⟩⟩

/-- The last write that names a pin determines its bit. -/
theorem run_odr (hn : n < 16) (h : s.Wf) (hu : Machine.run step s (ws.map outWrite) = .ok u) :
    u.ODR.getLsbD n = (ws.filterMap (named n)).getLastD (s.ODR.getLsbD n) := by
  induction ws generalizing s with
  | nil =>
    cases hu
    rfl
  | cons w ws ih =>
    obtain ⟨t, ht, hu⟩ := Machine.run_cons_ok.1 hu
    rw [ih (pin_step h ht).1 hu, outWrite_odr h ht hn]
    cases hw : named n w with
    | none => rw [List.filterMap_cons_none hw, Option.getD_none]
    | some b => rw [List.filterMap_cons_some hw, List.getLastD_cons, Option.getD_some]

/-- The values of bit `n` of `ODR` before each operation of a run that ends in `u`, and in `u`. -/
def odrBits (n : ℕ) (s : Stm32Gpio) (l : List Op) (u : Stm32Gpio) : List Bool :=
  Machine.trace step (fun s _ => [s.ODR.getLsbD n]) s l ++ [u.ODR.getLsbD n]

/-- Each write drives the line of an output if the next value of the bit is another one. -/
theorem run_levels_output (hn : n < 16) (h : s.Wf) (ho : (s.pin n).output = true)
    (hu : Machine.run step s (ws.map outWrite) = .ok u) :
    (odrBits n s (ws.map outWrite) u).destutter (· ≠ ·) =
      s.ODR.getLsbD n :: levels n (Machine.trace step driven s (ws.map outWrite)) := by
  induction ws generalizing s with
  | nil =>
    cases hu
    rfl
  | cons w ws ih =>
    obtain ⟨t, ht, hu⟩ := Machine.run_cons_ok.1 hu
    have hrest := ih (pin_step h ht).1 ((outWrite_output h ht hn).trans ho) hu
    -- the values after the write start with the bit it leaves
    obtain ⟨bits, hbits⟩ : ∃ bits, odrBits n t (ws.map outWrite) u = t.ODR.getLsbD n :: bits := by
      cases ws with
      | nil =>
        cases hu
        exact ⟨[], rfl⟩
      | cons w' ws => exact ⟨_, rfl⟩
    have hcons : odrBits n s ((w :: ws).map outWrite) u =
        s.ODR.getLsbD n :: odrBits n t (ws.map outWrite) u := by
      rw [odrBits, List.map_cons, Machine.trace_cons _ ht]
      rfl
    rw [hbits, List.destutter_cons'] at hrest
    rw [hcons, hbits, List.destutter_cons', List.map_cons, Machine.trace_cons driven ht, levels_append,
      levels_outWrite h ht hn, ho, Bool.true_and]
    by_cases hb : s.ODR.getLsbD n = t.ODR.getLsbD n
    · rw [List.destutter'_cons_neg _ (not_not.2 hb), hb, hrest]
      simp
    · rw [List.destutter'_cons_pos _ hb, hrest]
      simp [hb]

theorem run_levels_input (hn : n < 16) (h : s.Wf) (ho : (s.pin n).output = false)
    (hu : Machine.run step s (ws.map outWrite) = .ok u) :
    levels n (Machine.trace step driven s (ws.map outWrite)) = [] := by
  induction ws generalizing s with
  | nil => rfl
  | cons w ws ih =>
    obtain ⟨t, ht, hu⟩ := Machine.run_cons_ok.1 hu
    rw [List.map_cons, Machine.trace_cons driven ht, levels_append, levels_outWrite h ht hn, ho,
      ih (pin_step h ht).1 ((outWrite_output h ht hn).trans ho) hu]
    rfl

end Stm32Gpio

open Stm32Gpio

/-- **The bits of `ODR` and the levels driven on the lines.**  From every reachable state, writes
    to `ODR`, `BSRR` and `BRR` leave in each bit what the last write that names the pin says.  The
    levels driven on the line of an output are the values of the bit after the first one, without
    repetitions; nothing is driven on the line of an input. -/
theorem output_trace {l : List Stm32Gpio.Op} {s : Stm32Gpio}
    (hs : Machine.run Stm32Gpio.step Stm32Gpio.init.reset l = .ok s)
    (ws : List (OutReg × BitVec 32)) :
    ∃ u, Machine.run Stm32Gpio.step s (ws.map outWrite) = .ok u ∧
      u.outIrq = Machine.store s.outIrq (Machine.trace Stm32Gpio.step driven s (ws.map outWrite)) ∧
      ∀ n < 16,
        u.ODR.getLsbD n = (ws.filterMap (named n)).getLastD (s.ODR.getLsbD n) ∧
        (s.getModeBits n ≠ 0 →
          (odrBits n s (ws.map outWrite) u).destutter (· ≠ ·) =
            s.ODR.getLsbD n :: levels n (Machine.trace Stm32Gpio.step driven s (ws.map outWrite))) ∧
        (s.getModeBits n = 0 →
          levels n (Machine.trace Stm32Gpio.step driven s (ws.map outWrite)) = []) := by
  have hwf : s.Wf :=
    Machine.run_inv (I := Stm32Gpio.Wf) (fun _ _ _ ht hu => (pin_step ht hu).1) (wf_reset _) hs
  obtain ⟨u, hu⟩ := exists_run_outWrite ws s
  refine ⟨u, hu, run_outIrq hu, fun n hn => ⟨run_odr hn hwf hu, fun hmode => ?_, fun hmode => ?_⟩⟩
  · exact run_levels_output hn hwf (bne_iff_ne.2 hmode) hu
  · exact run_levels_input hn hwf (bne_eq_false_iff_eq.2 hmode) hu

/-- A port after its reset, with pin 13 made an output. -/
def pin13Output : Stm32Gpio := updateDir { Stm32Gpio.init.reset with CRH := 0x44344444 } 1

/-- Pin 13 is set, set again together with its reset bit, and cleared; pin 3 is an input. -/
theorem output_trace_pin13 : ∃ u,
    Machine.run Stm32Gpio.step Stm32Gpio.init.reset [.write 0x04 0x44344444 4] = .ok pin13Output ∧
    Machine.run Stm32Gpio.step pin13Output
      ([(.bsrr, 0x2008), (.bsrr, 0x20002000), (.brr, 0xf0002000)].map outWrite) = .ok u ∧
    u.ODR.getLsbD 13 = false ∧ u.ODR.getLsbD 3 = true ∧
    levels 13 (Machine.trace Stm32Gpio.step driven pin13Output
      ([(.bsrr, 0x2008), (.bsrr, 0x20002000), (.brr, 0xf0002000)].map outWrite)) = [true, false] ∧
    levels 3 (Machine.trace Stm32Gpio.step driven pin13Output
      ([(.bsrr, 0x2008), (.bsrr, 0x20002000), (.brr, 0xf0002000)].map outWrite)) = [] := by
  obtain ⟨u, hu, -, hpin⟩ := output_trace (l := [.write 0x04 0x44344444 4]) (s := pin13Output) rfl
    [(.bsrr, 0x2008), (.bsrr, 0x20002000), (.brr, 0xf0002000)]
  refine ⟨u, rfl, hu, (hpin 13 (by decide)).1, (hpin 3 (by decide)).1, ?_, (hpin 3 (by decide)).2.2 rfl⟩
  have hlevels := (hpin 13 (by decide)).2.1 (by decide)
  cases hu
  exact (List.cons.inj hlevels).2.symm

end Bluepill
