/-
  The interrupt line of the UART.

  The line is driven only when its level changes, by `updateIrq`.  What decides
  the level are seven flags (`Line`).  After every operation, in both builds, the
  line and the level the device remembers are the ones of the flags
  (`irq_eq_level`).

  The transmitter calls `updateIrq` and clears `TC` after that.  This is no
  stale level, since `TC` is clear already whenever the data register is full:
  the second half of the invariant (`Line.Driven.busy`).
-/
import Bluepill.Rcc.Spec
import Bluepill.Uart

namespace Bluepill

namespace Stm32Uart

/-- The flags that decide the level of the interrupt, the level driven on the
    line, and the one the device remembers. -/
structure Line where
  TXE : Bool
  TC : Bool
  RXNE : Bool
  ORE : Bool
  TXEIE : Bool
  TCIE : Bool
  RXNEIE : Bool
  irq : Bool
  currIrqLevel : Bool

def Line.level (l : Line) : Bool :=
  (l.TCIE && l.TC) || (l.TXEIE && l.TXE) || (l.RXNEIE && (l.ORE || l.RXNE))

/-- The line as `updateIrq` leaves it. -/
def Line.update (l : Line) : Line :=
  if l.level ^^ l.currIrqLevel then { l with irq := l.level, currIrqLevel := l.level } else l

def line (s : Stm32Uart) : Line :=
  ⟨s.SR_TXE, s.SR_TC, s.SR_RXNE, s.SR_ORE, s.CR1_TXEIE, s.CR1_TCIE, s.CR1_RXNEIE, s.irq,
    s.currIrqLevel⟩

/-- The two levels are the same, and only a running transmitter has a full data
    register. -/
structure Line.Wired (l : Line) : Prop where
  same : l.irq = l.currIrqLevel
  busy : l.TXE = false → l.TC = false

/-- The two levels are those of the flags. -/
structure Line.Driven (l : Line) : Prop extends Line.Wired l where
  level : l.currIrqLevel = l.level

variable {build : UartBuild} {env : UartEnv} {s t : Stm32Uart} {v : BitVec 32} {l : Line}

/-- **`updateIrq` drives the line.** -/
theorem Line.Wired.update (h : l.Wired) : l.update.Driven := by
  unfold Line.update
  split
  · exact ⟨⟨rfl, h.busy⟩, rfl⟩
  · rename_i hx
    have heq : l.level = l.currIrqLevel := by simpa using hx
    exact ⟨h, heq.symm⟩

@[simp] theorem Line.update_TXE (l : Line) : l.update.TXE = l.TXE := by
  unfold Line.update; split <;> rfl

@[simp] theorem Line.update_TC (l : Line) : l.update.TC = l.TC := by
  unfold Line.update; split <;> rfl

@[simp] theorem updateIrq_line (s : Stm32Uart) : s.updateIrq.line = s.line.update := by
  unfold updateIrq
  dsimp only
  split
  · rename_i hx; rw [Line.update, if_pos (by exact hx)]; rfl
  · rename_i hx; rw [Line.update, if_neg (by exact hx)]

/-! ## The transmitter -/

theorem txComplete_line_empty (h : s.SR_TXE = true) :
    (txComplete build env s).line = Line.update { s.line with TC := true } := by
  rw [txComplete, if_pos h, updateIrq_line]; rfl

theorem startTx_line_empty (h : s.SR_TXE = true) : (startTx build env s v).line =
    if build.noBaudDelay then Line.update { s.line with TC := true }
    else { s.line with TC := false } := by
  rw [startTx]
  dsimp only
  split
  · rw [txComplete_line_empty (by exact h)]; rfl
  · rfl

theorem txComplete_line_full (h : s.SR_TXE = false) : (txComplete build env s).line =
    if build.noBaudDelay then Line.update { Line.update { s.line with TXE := true } with TC := true }
    else { Line.update { s.line with TXE := true } with TC := false } := by
  rw [txComplete, if_neg (by simp [h]), startTx_line_empty (by simp), updateIrq_line]; rfl

/-- A transmission that has ended leaves the line driven, even if it starts the
    next one. -/
theorem txComplete_driven (h : s.line.Driven) : (txComplete build env s).line.Driven := by
  cases hx : s.SR_TXE with
  | true =>
    rw [txComplete_line_empty hx]
    refine Line.Wired.update ⟨h.same, fun hn => ?_⟩
    exact absurd (hx.symm.trans hn) (by decide)
  | false =>
    have hd : (Line.update { s.line with TXE := true }).Driven :=
      Line.Wired.update ⟨h.same, fun hn => by cases hn⟩
    rw [txComplete_line_full hx]
    split
    · exact Line.Wired.update ⟨hd.same, fun hn => by simp at hn⟩
    · -- `TC` was clear already
      have htc : (Line.update { s.line with TXE := true }).TC = false :=
        (Line.update_TC _).trans (h.busy hx)
      rw [show { Line.update { s.line with TXE := true } with TC := false } =
        Line.update { s.line with TXE := true } by rw [← htc]]
      exact hd

theorem startTx_wired (h : s.line.Wired) (hx : s.SR_TXE = true) :
    (startTx build env s v).line.Wired := by
  rw [startTx_line_empty hx]
  split
  · refine (Line.Wired.update (l := { s.line with TC := true }) ⟨h.same, fun hn => ?_⟩).toWired
    exact absurd (hx.symm.trans hn) (by decide)
  · exact ⟨h.same, fun _ => rfl⟩

/-! ## The operations -/

theorem accept_driven (h : s.line.Driven) (b : BitVec 8) : (s.accept b).line.Driven := by
  unfold accept
  split
  · rw [updateIrq_line]
    refine Line.Wired.update ?_
    split
    · have hw : (updateIrq { s with SR_ORE := true, srReadSinceOreSet := false }).line.Driven := by
        rw [updateIrq_line]; exact Line.Wired.update ⟨h.same, h.busy⟩
      exact ⟨hw.same, hw.busy⟩
    · exact ⟨h.same, h.busy⟩
  · exact h

theorem receive_driven (h : s.line.Driven) {buf : List (BitVec 8)}
    (ht : receive build env s buf = .ok t) : t.line.Driven := by
  cases buf with
  | nil => cases ht
  | cons b buf =>
    have ha := accept_driven h b
    unfold receive at ht
    dsimp only at ht
    split at ht
    · cases ht; exact ha
    · cases ht
      split <;> exact ha

theorem srRead_line (s : Stm32Uart) : s.srRead.2.line = s.line := by
  unfold srRead; dsimp only; split <;> rfl

theorem srWrite_driven (h : s.line.Driven) (ht : s.srWrite v = .ok t) : t.line.Driven := by
  unfold srWrite at ht
  dsimp only at ht
  split at ht
  · cases ht
  rename_i htc
  split at ht
  · cases ht
  cases ht
  rw [updateIrq_line]
  exact Line.Wired.update ⟨h.same, fun _ => by simpa [line] using htc⟩

theorem drRead_driven (h : s.line.Driven) {r : BitVec 32 × Stm32Uart} (ht : s.drRead = .ok r) :
    r.2.line.Driven := by
  have hw : s.clearOre.line.Wired := by
    unfold clearOre
    split
    · exact ⟨h.same, h.busy⟩
    · exact h.toWired
  unfold drRead at ht
  dsimp only at ht
  split at ht
  · cases ht
  split at ht
  · cases ht
  split at ht
  · cases ht
    rw [updateIrq_line]
    exact Line.Wired.update ⟨hw.same, hw.busy⟩
  · cases ht

theorem drWrite_driven (h : s.line.Driven) (ht : drWrite build env s v = .ok t) :
    t.line.Driven := by
  unfold drWrite at ht
  dsimp only at ht
  split at ht
  · cases ht
  split at ht
  · cases ht
  obtain ⟨-, -, ht⟩ := Machine.bind_eq_ok.1 ht
  split at ht
  · rename_i htc
    have hx : s.SR_TXE = true := by
      by_contra hx
      exact absurd (htc.symm.trans (h.busy (by simpa [line] using hx))) (by decide)
    cases ht
    rw [updateIrq_line]
    exact (startTx_wired h.toWired hx).update
  · rename_i htc
    split at ht
    · cases ht
      rw [updateIrq_line]
      exact Line.Wired.update ⟨h.same, fun _ => by simpa [line] using htc⟩
    · cases ht

theorem baudUpdate_line (h : baudUpdate env s = .ok t) : t.line = s.line := by
  obtain ⟨_, _, rfl⟩ := baudUpdate_eq h; rfl

theorem cr1Write_driven (h : s.line.Wired) (ht : cr1Write env s v = .ok t) : t.line.Driven := by
  unfold cr1Write at ht
  obtain ⟨-, -, ht⟩ := Machine.bind_eq_ok.1 ht
  cases ht
  rw [updateIrq_line]
  exact Line.Wired.update ⟨h.same, h.busy⟩

theorem cr3Write_line (s : Stm32Uart) (v : BitVec 32) : (cr3Write build env s v).line = s.line := by
  unfold cr3Write
  dsimp only
  split
  · split <;> rfl
  · rfl

/-- A reset drives the line, whatever the flags were. -/
theorem reset_driven (h : s.irq = s.currIrqLevel) (ht : reset build env s = .ok t) :
    t.line.Driven := by
  unfold reset at ht
  dsimp only at ht
  obtain ⟨s₁, h₁, ht⟩ := Machine.bind_eq_ok.1 ht
  obtain ⟨s₂, h₂, ht⟩ := Machine.bind_eq_ok.1 ht
  have hl₁ := baudUpdate_line h₁
  have hw : s₁.line.Wired := by rw [hl₁]; exact ⟨h, fun hn => by cases hn⟩
  have hd := cr1Write_driven hw h₂
  cases ht
  rw [updateIrq_line, cr3Write_line]
  exact hd.toWired.update

theorem read_driven (h : s.line.Driven) {offset size : ℕ} {r : BitVec 64 × Stm32Uart}
    (ht : s.read offset size = .ok r) : r.2.line.Driven := by
  unfold Stm32Uart.read at ht
  dsimp only at ht
  split at ht
  case h_1 => cases ht; rw [srRead_line]; exact h
  case h_2 =>
    obtain ⟨r', hr, ht⟩ := Machine.bind_eq_ok.1 ht
    cases ht
    exact drRead_driven h hr
  all_goals cases ht; exact h

theorem write_driven (h : s.line.Driven) {offset size : ℕ} {value : BitVec 64}
    (ht : s.write build env offset value size = .ok t) : t.line.Driven := by
  unfold Stm32Uart.write at ht
  split at ht
  case h_1 => exact srWrite_driven (by rw [srRead_line]; exact h) ht
  case h_2 => exact drWrite_driven h ht
  case h_3 => rw [baudUpdate_line ht]; exact h
  case h_4 => exact cr1Write_driven h.toWired ht
  case h_5 => cases ht; exact h
  case h_6 => cases ht; rw [cr3Write_line]; exact h
  case h_7 => cases ht; exact h

theorem txDmaTimerExpire_driven (h : s.line.Driven) :
    (txDmaTimerExpire build env s).line.Driven := by
  unfold txDmaTimerExpire
  split
  · exact txComplete_driven (s := { s with dmaIrq := _ }) h
  · exact h

/-- **Every operation that returns leaves the line driven.** -/
theorem step_driven (h : s.line.Driven) {o : UartEnv × Op} (ht : step build s o = .ok t) :
    t.line.Driven := by
  obtain ⟨env, o⟩ := o
  cases o with
  | read offset size =>
    obtain ⟨r, hr, ht⟩ := Machine.bind_eq_ok.1 ht
    cases ht
    exact read_driven h hr
  | write offset value size => exact write_driven h ht
  | receive buf => exact receive_driven h ht
  | rxTimer =>
    cases ht
    dsimp only
    split <;> exact h
  | txTimer =>
    cases ht
    dsimp only
    split
    · exact txComplete_driven (s := { s with txTimer := none }) h
    · exact h
  | txDmaTimer =>
    cases ht
    dsimp only
    split
    · exact txDmaTimerExpire_driven (s := { s with txDmaTimer := none }) h
    · exact h
  | clkIrq level =>
    obtain ⟨-, -, ht⟩ := Machine.bind_eq_ok.1 (show clkIrqHandler env s 0 level = .ok t from ht)
    split at ht
    · rw [baudUpdate_line ht]; exact h
    · cases ht; exact h
  | reset => exact reset_driven h.same ht

theorem start_driven {periph : Periph} {chr : Bool} {map : BitVec 32}
    (h : start build env periph chr map = .ok s) : s.line.Driven := by
  obtain ⟨s₁, h₁, h⟩ := Machine.bind_eq_ok.1 h
  exact reset_driven (s := s₁.connect chr map) (reset_driven rfl h₁).same h

/-- **The interrupt line never lags behind the flags.**  In both builds, from
    power-on and after any sequence of operations that returned, the level on the
    line and the one the device remembers are the one the flags ask for. -/
theorem irq_eq_level {periph : Periph} {chr : Bool} {map : BitVec 32} {l : List (UartEnv × Op)}
    (hs : start build env periph chr map = .ok s) (ht : Machine.run (step build) s l = .ok t) :
    let level := (t.CR1_TCIE && t.SR_TC) || (t.CR1_TXEIE && t.SR_TXE) ||
      (t.CR1_RXNEIE && (t.SR_ORE || t.SR_RXNE))
    t.currIrqLevel = level ∧ t.irq = level := by
  have hd : t.line.Driven :=
    Machine.run_inv (I := fun s => s.line.Driven) (fun _ _ _ h hs => step_driven h hs)
      (start_driven hs) ht
  exact ⟨hd.level, hd.same.trans hd.level⟩

theorem irq_eq_level_txe : ∃ rcc s u, Stm32Rcc.Reachable zeroHost 8000000 32768 rcc ∧
    start .shipped (readyEnv rcc) .UART1 true 0 = .ok s ∧
    Machine.run (step .shipped) s [(readyEnv rcc, .write 0x0c 0x2088 4)] = .ok u ∧
    u.CR1_TXEIE = true ∧ u.SR_TXE = true ∧ u.irq = true := by
  obtain ⟨rcc, hrcc⟩ := Stm32Rcc.exists_reachable zeroHost 8000000 32768
  have hstep : step .shipped idle (readyEnv rcc, .write 0x0c 0x2088 4) = .ok { idle with
      CR1 := 0x2088, CR1_UE := true, CR1_TXEIE := true, CR1_TE := true, irq := true,
      currIrqLevel := true } := by with_unfolding_all rfl
  have hrun : Machine.run (step .shipped) idle [(readyEnv rcc, .write 0x0c 0x2088 4)] = .ok _ :=
    Machine.run_cons_ok.2 ⟨_, hstep, Machine.run_nil _⟩
  exact ⟨rcc, idle, _, hrcc, start_idle _, hrun, rfl, rfl,
    (irq_eq_level (start_idle (readyEnv rcc)) hrun).2⟩

end Stm32Uart

end Bluepill
