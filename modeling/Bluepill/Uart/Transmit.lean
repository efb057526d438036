/-
  The bytes a UART hands to its character device, in the shipped build.

  * `Tx.Quiet`: no transmission is ever under way between two operations, since
    without a delay a transmission is complete when the write returns;
  * `step_tx`: a write to `DR` hands its byte over if `TC` is set, and no other
    operation hands anything over;
  * `sendsAll_iff`: every byte written to `DR` is handed over before its write
    returns, exactly when no write to `DR` finds `TC` clear.

  `TC` is cleared by a write to `SR`.  The byte written to `DR` then stays in
  the buffer, waiting for a transmission that is not under way.
-/
import Bluepill.Rcc.Spec
import Bluepill.Uart

namespace Bluepill

namespace Stm32Uart

variable {env : UartEnv} {s t : Stm32Uart}

/-- No transmission is under way, nor can one end: no timer runs. -/
structure Tx.Quiet (r : Tx) : Prop where
  chr : r.chr = true
  empty : r.TC = true → r.TXE = true
  txTimer : r.txTimer = none
  txDmaTimer : r.txDmaTimer = none

/-- The byte an operation writes to `DR`, if any: the low 8 bits of the value. -/
def Op.written : Op → List (BitVec 8)
  | .write offset value size =>
    if offset / 4 * 4 = 4 then [(laneValue 0 offset value size).setWidth 8] else []
  | _ => []

theorem setWidth_and_1ff (v : BitVec 32) : (v &&& 0x000001ff).setWidth 8 = v.setWidth 8 := by
  have hmask : (0x000001ff : BitVec 32).setWidth 8 = BitVec.allOnes 8 := by decide
  rw [BitVec.setWidth_and, hmask, BitVec.and_allOnes]

/-- A write to `DR` hands the byte over if `TC` is set.  Otherwise it stays in the
    buffer. -/
theorem drWrite_tx {v : BitVec 32} (hs : s.tx.Quiet) (h : drWrite .shipped env s v = .ok t) :
    t.tx.Quiet ∧ t.sent = s.sent ++ if s.SR_TC then [v.setWidth 8] else [] := by
  have hchr : s.chr = true := hs.chr
  rcases drWrite_cases .shipped h with ⟨hTC, ht⟩ | ⟨hTC, -, ht⟩
  · have htx : t.tx = { s.tx with TC := true, sent := s.sent ++ [v.setWidth 8] } := by
      rw [ht, updateIrq_tx, startTx_shipped (hs.empty hTC), updateIrq_tx, if_pos hchr, setWidth_and_1ff]
      rfl
    refine ⟨?_, ?_⟩
    · rw [htx]; exact ⟨hs.chr, fun _ => hs.empty hTC, hs.txTimer, hs.txDmaTimer⟩
    · rw [if_pos hTC]; exact congrArg Tx.sent htx
  · have htx : t.tx = { s.tx with TXE := false } := by rw [ht, updateIrq_tx]; rfl
    refine ⟨?_, ?_⟩
    · rw [htx]
      exact ⟨hs.chr, fun h' => absurd (hTC.symm.trans h') (by decide), hs.txTimer, hs.txDmaTimer⟩
    · rw [hTC, if_neg (by decide), List.append_nil]; exact congrArg Tx.sent htx

/-- An operation that leaves the transmitter alone. -/
theorem Tx.Quiet.frame {l : List (BitVec 8)} (hs : s.tx.Quiet) (h : t.tx = s.tx) (hl : l = []) :
    t.tx.Quiet ∧ t.sent = s.sent ++ if s.SR_TC then l else [] := by
  rw [h, hl, ite_self, List.append_nil]
  exact ⟨hs, congrArg Tx.sent h⟩

theorem step_tx {o : UartEnv × Op} (hs : s.tx.Quiet) (h : step .shipped s o = .ok t) :
    t.tx.Quiet ∧ t.sent = s.sent ++ if s.SR_TC then o.2.written else [] := by
  obtain ⟨env, op⟩ := o
  cases op with
  | read offset size =>
    obtain ⟨⟨v, t'⟩, hv, ht⟩ := Machine.bind_eq_ok.1 h
    cases ht
    exact hs.frame (read_parts hv).1 rfl
  | write offset value size =>
    rcases write_parts h with ⟨ho, htx, -⟩ | ⟨ho, h⟩ | ⟨-, ho, htx, -⟩
    · have hnone : (Op.write offset value size).written = [] := if_neg (by omega)
      refine ⟨?_, ?_⟩
      · rw [htx]; exact ⟨hs.chr, fun h' => (nomatch h'), hs.txTimer, hs.txDmaTimer⟩
      · rw [hnone, ite_self, List.append_nil]; exact congrArg Tx.sent htx
    · rw [show (Op.write offset value size).written = [_] from if_pos ho]
      exact drWrite_tx hs h
    · exact hs.frame htx (if_neg ho)
  | receive buf =>
    obtain ⟨-, -, -, htx, -⟩ := receive_parts .shipped h
    exact hs.frame htx rfl
  | rxTimer =>
    cases h
    refine hs.frame ?_ rfl
    dsimp only
    split <;> rfl
  | txTimer =>
    have hnone : s.txTimer = none := hs.txTimer
    cases h
    exact hs.frame (by simp [hnone]) rfl
  | txDmaTimer =>
    have hnone : s.txDmaTimer = none := hs.txDmaTimer
    cases h
    exact hs.frame (by simp [hnone]) rfl
  | clkIrq level => exact hs.frame (clkIrqHandler_parts h).1 rfl
  | reset =>
    obtain ⟨htx, -⟩ := reset_parts h
    refine ⟨?_, ?_⟩
    · rw [htx]; exact ⟨hs.chr, fun _ => rfl, hs.txTimer, hs.txDmaTimer⟩
    · rw [show Op.reset.written = [] from rfl, ite_self, List.append_nil]
      exact congrArg Tx.sent htx

theorem quiet_start {periph : Periph} {map : BitVec 32}
    (h : start .shipped env periph true map = .ok s) : s.tx.Quiet ∧ s.sent = [] := by
  obtain ⟨htx, -⟩ := start_parts h
  refine ⟨?_, congrArg Tx.sent htx⟩
  rw [htx]; exact ⟨rfl, fun _ => rfl, rfl, rfl⟩

/-- All along the operations `l`, the bytes handed over are the bytes written to `DR`. -/
def SendsAll (s : Stm32Uart) (l : List (UartEnv × Op)) : Prop :=
  ∀ l₁ l₂ t, l = l₁ ++ l₂ → Machine.run (step .shipped) s l₁ = .ok t →
    t.sent = l₁.flatMap (·.2.written)

/-- **Every byte written to `DR` is handed over, in order and before its write
    returns, exactly when every write to `DR` finds `TC` set.** -/
theorem sendsAll_iff {periph : Periph} {map : BitVec 32} {u : Stm32Uart} {l : List (UartEnv × Op)}
    (h : start .shipped env periph true map = .ok s)
    (hr : Machine.run (step .shipped) s l = .ok u) :
    s.SendsAll l ↔
      ∀ t o, Machine.Takes (step .shipped) s l t o → o.2.written ≠ [] → t.SR_TC = true := by
  obtain ⟨hs, hsent⟩ := quiet_start h
  rw [← Machine.trace_iff_takes (E := fun (_ : Stm32Uart) (o : UartEnv × Op) => o.2.written)
    (I := fun t => t.tx.Quiet) (P := fun e t => t.sent = e) (fun t o u ht hu => (step_tx ht hu).1) ?_ hs hsent hr]
  · refine forall₅_congr fun l₁ l₂ t hl hr => ?_
    rw [Machine.trace_of_op hr]
  · intro e t o u ht he hu
    rw [(step_tx ht hu).2, he, List.append_cancel_left_eq]
    cases t.SR_TC
    · simp
    · simp

/-- A byte written to the enabled `UART1`. -/
theorem sendsAll_iff_enabled : ∃ rcc s u, Stm32Rcc.Reachable zeroHost 8000000 32768 rcc ∧
    start .shipped (readyEnv rcc) .UART1 true 0 = .ok s ∧
    Machine.run (step .shipped) s [(readyEnv rcc, .write 0x0c 0x200c 4),
      (readyEnv rcc, .write 0x04 0x41 4)] = .ok u ∧
    s.SendsAll [(readyEnv rcc, .write 0x0c 0x200c 4), (readyEnv rcc, .write 0x04 0x41 4)] ∧
    u.sent = [0x41] := by
  obtain ⟨rcc, hrcc⟩ := Stm32Rcc.exists_reachable zeroHost 8000000 32768
  obtain ⟨u, hu⟩ := drWrite_ready (s := enabled) rcc (laneValue 0 0x04 0x41 4) rfl rfl rfl rfl
  have hrun : Machine.run (step .shipped) idle [(readyEnv rcc, .write 0x0c 0x200c 4),
      (readyEnv rcc, .write 0x04 0x41 4)] = .ok u :=
    Machine.run_cons_ok.2 ⟨enabled, step_enabled rcc, Machine.run_cons_ok.2 ⟨u, hu, rfl⟩⟩
  have hall : idle.SendsAll [(readyEnv rcc, .write 0x0c 0x200c 4), (readyEnv rcc, .write 0x04 0x41 4)] := by
    refine (sendsAll_iff (start_idle (readyEnv rcc)) hrun).2 fun t o ho hw => ?_
    rcases Machine.takes_cons ho with ⟨-, rfl⟩ | ⟨t₁, ht₁, ho⟩
    · exact absurd rfl hw
    cases (step_enabled rcc).symm.trans ht₁
    rcases Machine.takes_cons ho with ⟨rfl, -⟩ | ⟨t₂, -, l₁, l₂, hl, -⟩
    · rfl
    · simp at hl
  exact ⟨rcc, idle, u, hrcc, start_idle _, hrun, hall, hall _ [] u (by simp) hrun⟩

/-- After a write to `SR`, a byte written to `DR` is not handed over. -/
theorem not_sendsAll_srWrite : ∃ rcc s u, Stm32Rcc.Reachable zeroHost 8000000 32768 rcc ∧
    start .shipped (readyEnv rcc) .UART1 true 0 = .ok s ∧
    Machine.run (step .shipped) s [(readyEnv rcc, .write 0x0c 0x200c 4),
      (readyEnv rcc, .write 0x00 0x00 4), (readyEnv rcc, .write 0x04 0x41 4)] = .ok u ∧
    u.sent = [] ∧
    ¬ s.SendsAll [(readyEnv rcc, .write 0x0c 0x200c 4), (readyEnv rcc, .write 0x00 0x00 4),
      (readyEnv rcc, .write 0x04 0x41 4)] := by
  obtain ⟨rcc, hrcc⟩ := Stm32Rcc.exists_reachable zeroHost 8000000 32768
  have hcleared : step .shipped enabled (readyEnv rcc, .write 0x00 0x00 4) =
      .ok { enabled with SR_TC := false } := rfl
  obtain ⟨u, hu⟩ := drWrite_ready (s := { enabled with SR_TC := false }) rcc (laneValue 0 0x04 0x41 4)
    rfl rfl rfl rfl
  have hrun : Machine.run (step .shipped) idle [(readyEnv rcc, .write 0x0c 0x200c 4),
      (readyEnv rcc, .write 0x00 0x00 4), (readyEnv rcc, .write 0x04 0x41 4)] = .ok u :=
    Machine.run_cons_ok.2 ⟨enabled, step_enabled rcc, Machine.run_cons_ok.2 ⟨_, hcleared,
      Machine.run_cons_ok.2 ⟨u, hu, rfl⟩⟩⟩
  have hsent : u.sent = [] :=
    (drWrite_tx ⟨rfl, fun h => absurd h (by decide), rfl, rfl⟩ hu).2
  refine ⟨rcc, idle, u, hrcc, start_idle _, hrun, hsent, fun hall => ?_⟩
  have hsent' := hall _ [] u (List.append_nil _).symm hrun
  rw [hsent] at hsent'
  cases hsent'

end Stm32Uart

end Bluepill
