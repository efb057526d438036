/-
  From the input pins to the external interrupts.

  A level driven on a pin is noted by its port, and relayed on the wire that the AFIO
  connected (`stm32_gpio_in_trigger`, `stm32_exti_gpio_in_handler`).  The handler assumes
  that it is only called if the pin changed; the port does not look.  `Inputs` are the
  ports, the AFIO and the controller together, and `edges_iff` says when a run keeps to
  the assumption.
-/
import Bluepill.Afio
import Bluepill.Exti.Lines
import Bluepill.Gpio

namespace Bluepill

/-- The ports, the AFIO and the external interrupts. -/
structure Inputs where
  gpio : ℕ → Stm32Gpio
  afio : Stm32Afio
  exti : Stm32Exti

namespace Inputs

/-- `stm32_gpio_in_trigger` of port `g`, with the level relayed on the wire of the pin. -/
def drive (x : Inputs) (g pin : ℕ) (level : Bool) : Except Fault Inputs :=
  if g < STM32_GPIO_COUNT then do
    let port ← (x.gpio g).inTrigger pin level
    let x := { x with gpio := Function.update x.gpio g port }
    match x.afio.inIrq g pin with
    | some n => do
      let exti ← x.exti.gpioInHandler n level
      .ok { x with exti }
    | none => .ok x
  else .error .outOfBounds

/-- A level driven on a pin, and the writes of the guest. -/
inductive Op where
  | drive (g pin : ℕ) (level : Bool)
  | afioWrite (offset : ℕ) (value : BitVec 64)
  | extiWrite (offset : ℕ) (value : BitVec 64) (size : ℕ)

def step (x : Inputs) : Op → Except Fault Inputs
  | .drive g pin level => x.drive g pin level
  | .afioWrite offset value => do
    let afio ← x.afio.write offset value
    .ok { x with afio }
  | .extiWrite offset value size => do
    let exti ← x.exti.write offset value size
    .ok { x with exti }

/-- The level of pin `n` of port `g`. -/
def level (x : Inputs) (g n : ℕ) : Bool := (x.gpio g).in_.getLsbD n

/-- Line `n` is pending. -/
def pending (x : Inputs) (n : ℕ) : Bool := x.exti.PR.getLsbD n

/-- The wires are those of the registers. -/
def Wired (x : Inputs) : Prop := x.afio.Wf ∧ x.afio.Routed

/-- A level driven on a pin makes a line pending only if the level of the pin of the
    routed port changes. -/
def RealEdge (x y : Inputs) : Op → Prop
  | .drive _ _ _ => ∀ n ≤ 15, x.pending n = false → y.pending n = true →
      y.level (x.afio.readPort n) n ≠ x.level (x.afio.readPort n) n
  | .afioWrite _ _ | .extiWrite _ _ _ => True

/-- The level is not that of the pin already, or the line it is routed to is not waiting for
    it: masked, not selected for the level, or pending already. -/
def Moves (x : Inputs) : Op → Prop
  | .drive g pin level =>
    x.afio.readPort pin = g → (x.exti.line pin).IMR = true → (x.exti.line pin).selects level = true →
      x.pending pin = false → level ≠ x.level g pin
  | .afioWrite _ _ | .extiWrite _ _ _ => True

variable {x y : Inputs} {o : Op} {g pin : ℕ} {b : Bool}

theorem inTrigger_ok {p q : Stm32Gpio} (h : p.inTrigger pin b = .ok q) :
    pin < 16 ∧ ∀ n < 16, q.in_.getLsbD n = if n = pin then b else p.in_.getLsbD n := by
  obtain ⟨hpin : pin < 16, h⟩ := assert_bind.1 h
  cases h
  exact ⟨hpin, fun n hn => Word.getLsbD_setBit _ _ _ hn⟩

/-- What driving a pin does: the pin takes the level, and the line it is routed to sees an
    edge to it. -/
theorem drive_ok (hx : x.Wired) (h : x.drive g pin b = .ok y) :
    pin < 16 ∧ y.afio = x.afio ∧
      (∀ n < 16, ∀ g', y.level g' n = if g' = g ∧ n = pin then b else x.level g' n) ∧
      ∀ n < 20, y.exti.line n =
        if x.afio.readPort pin = g ∧ pin = n then (x.exti.line n).edge b else x.exti.line n := by
  unfold drive at h
  split at h
  · rename_i hg
    obtain ⟨port, hport, h⟩ := Machine.bind_eq_ok.1 h
    obtain ⟨hpin, hin⟩ := inTrigger_ok hport
    have hwire := (hx.2 pin hpin).2 g hg
    have hlevel : ∀ n < 16, ∀ g', (Function.update x.gpio g port g').in_.getLsbD n =
        if g' = g ∧ n = pin then b else x.level g' n := by
      intro n hn g'
      by_cases hg' : g' = g
      · subst hg'
        rw [Function.update_self, hin n hn]
        simp [level]
      · rw [Function.update_of_ne hg', if_neg fun h => hg' h.1]
        rfl
    dsimp only at h
    rw [hwire] at h
    by_cases hroute : g = x.afio.readPort pin
    · rw [if_pos hroute] at h
      obtain ⟨exti, hexti, h⟩ := Machine.bind_eq_ok.1 h
      cases h
      refine ⟨hpin, rfl, hlevel, fun n hn => ?_⟩
      have hline := Stm32Exti.step_line (o := .gpioIn pin b) hn hexti
      simpa [Line.step, hroute] using hline
    · rw [if_neg hroute] at h
      cases h
      refine ⟨hpin, rfl, hlevel, fun n _ => ?_⟩
      rw [if_neg fun h => hroute h.1.symm]
  · cases h

theorem edge_PR (z : Line) (b : Bool) : (z.edge b).PR = (z.PR || z.selects b && z.IMR) := by
  unfold Line.edge Line.trigger Line.changePr
  cases hsel : z.selects b with
  | false => simp
  | true => cases hm : z.IMR <;> cases hp : z.PR <;> simp [hp]

/-- **A step keeps to the assumption exactly if it does not drive the level a pin has on a
    line that waits for it.** -/
theorem realEdge_iff (hx : x.Wired) (h : x.step o = .ok y) : RealEdge x y o ↔ x.Moves o := by
  cases o with
  | drive g pin b =>
    obtain ⟨hpin, -, hlevel, hline⟩ := drive_ok hx h
    have hpending : ∀ n < 20, y.pending n = (if x.afio.readPort pin = g ∧ pin = n then
        x.pending n || (x.exti.line n).selects b && (x.exti.line n).IMR else x.pending n) := by
      intro n hn
      have hPR := congrArg Line.PR (hline n hn)
      split at hPR
      · rename_i hroute
        rw [edge_PR] at hPR
        rw [if_pos hroute]
        exact hPR
      · rename_i hroute
        rw [if_neg hroute]
        exact hPR
    constructor
    · intro hreal hroute hIMR hsel hclear hsame
      have hset : y.pending pin = true := by
        rw [hpending pin (by omega), if_pos ⟨hroute, rfl⟩, hIMR, hsel]
        simp
      refine hreal pin (by omega) hclear hset ?_
      rw [hroute, hlevel pin hpin, if_pos ⟨rfl, rfl⟩, hsame]
    · intro hmoves n hn hclear hset
      rw [hpending n (by omega)] at hset
      split at hset
      · rename_i hroute
        obtain ⟨hroute, rfl⟩ := hroute
        rw [hclear, Bool.false_or, Bool.and_eq_true] at hset
        rw [hroute, hlevel pin hpin, if_pos ⟨rfl, rfl⟩]
        exact hmoves hroute hset.2 hset.1 hclear
      · exact absurd (hclear.symm.trans hset) (by decide)
  | afioWrite => exact Iff.rfl
  | extiWrite => exact Iff.rfl

theorem Wired.step (hx : x.Wired) (h : x.step o = .ok y) : y.Wired := by
  cases o with
  | drive g pin b =>
    obtain ⟨-, hafio, -, -⟩ := drive_ok hx h
    rw [Wired, hafio]
    exact hx
  | afioWrite offset value =>
    obtain ⟨afio, hafio, h⟩ := Machine.bind_eq_ok.1 h
    cases h
    have hwrite : x.afio.step (.write offset value) = .ok afio := hafio
    exact ⟨hx.1.step hwrite, (Stm32Afio.step_routed hx.1 hx.2 hwrite).2 trivial⟩
  | extiWrite offset value size =>
    obtain ⟨exti, -, h⟩ := Machine.bind_eq_ok.1 h
    cases h
    exact hx

end Inputs

open Inputs in
/-- **When only real edges raise interrupts.**  From the first reset of the AFIO, with any
    levels on the pins and any state of the controller, a level driven on a pin makes a line
    pending only if the routed pin changes, exactly if no step drives the level a pin already
    has on a line that waits for it. -/
theorem edges_iff {x u : Inputs} {l : List Inputs.Op} (h₀ : Stm32Afio.init.reset = .ok x.afio)
    (h : Machine.run Inputs.step x l = .ok u) :
    (∀ t o v, Machine.Takes Inputs.step x l t o → t.step o = .ok v → RealEdge t v o) ↔
      ∀ t o, Machine.Takes Inputs.step x l t o → t.Moves o := by
  refine Machine.steps_iff_takes (I := Wired) (Q := fun t o v => RealEdge t v o) ?_ ?_
    (Stm32Afio.first_reset h₀) h
  · intro t o v ht hv
    exact ht.step hv
  · intro t o v ht hv
    exact realEdge_iff ht hv

namespace Inputs

/-! ## Port A -/

instance (x : Inputs) : (o : Op) → Decidable (x.Moves o)
  | .drive _ _ _ => inferInstanceAs (Decidable (_ → _ → _ → _ → _))
  | .afioWrite _ _ | .extiWrite _ _ _ => .isTrue trivial

/-- All pins are low. -/
def low (afio : Stm32Afio) : Inputs := ⟨fun _ => Stm32Gpio.init, afio, Stm32Exti.init⟩

/-- Line 0 is unmasked and triggered by rising edges; pin 0 of port A rises, and the line is
    cleared. -/
def served : List Op :=
  [.extiWrite 0x00 1 4, .extiWrite 0x08 1 4, .drive 0 0 true, .extiWrite 0x14 1 4]

end Inputs

open Inputs in
theorem edges_iff_served : ∃ afio u, Stm32Afio.init.reset = .ok afio ∧
    Machine.run Inputs.step (low afio) served = .ok u ∧
    ∀ t o v, Machine.Takes Inputs.step (low afio) served t o → t.step o = .ok v → RealEdge t v o := by
  have heval : Machine.Post (fun afio => Machine.Meets Inputs.step Moves (low afio) served ∧
      Machine.Post (fun _ => True) (fun _ => False) (Machine.run Inputs.step (low afio) served))
      (fun _ => False) Stm32Afio.init.reset := by
    decide +kernel
  obtain ⟨afio, hafio, hmeets, hrun⟩ := Machine.post_ok.1 heval
  obtain ⟨u, hu, -⟩ := Machine.post_ok.1 hrun
  exact ⟨afio, u, hafio, hu, (edges_iff hafio hu).2 hmeets.takes⟩

open Inputs in
/-- The pin is high already and driven high again: line 0 is pending although the pin did
    not change. -/
theorem not_edges_repeated : ∃ afio t v, Stm32Afio.init.reset = .ok afio ∧
    Machine.run Inputs.step (low afio) served = .ok t ∧ t.step (.drive 0 0 true) = .ok v ∧
    t.afio.readPort 0 = 0 ∧ t.pending 0 = false ∧ v.pending 0 = true ∧ v.level 0 0 = t.level 0 0 := by
  have heval : Machine.Post (fun afio => Machine.Post (fun t => Machine.Post (fun v =>
      t.afio.readPort 0 = 0 ∧ t.pending 0 = false ∧ v.pending 0 = true ∧ v.level 0 0 = t.level 0 0)
      (fun _ => False) (t.step (.drive 0 0 true))) (fun _ => False)
      (Machine.run Inputs.step (low afio) served)) (fun _ => False) Stm32Afio.init.reset := by
    decide +kernel
  obtain ⟨afio, hafio, hrun⟩ := Machine.post_ok.1 heval
  obtain ⟨t, ht, hstep⟩ := Machine.post_ok.1 hrun
  obtain ⟨v, hv, hvals⟩ := Machine.post_ok.1 hstep
  exact ⟨afio, t, v, hafio, ht, hv, hvals⟩

end Bluepill
