/-
  The bytes a UART receives, in the shipped build.

  The receive buffer holds one byte.  A byte enters it when the character layer
  delivers it to an enabled receiver, and leaves it by a read of `DR` or because
  the guest discards it (a write to `SR`, a reset).

  * `RxEvent` are these three events, and `rxEvents` those of an operation;
  * `step_rx`: if the character layer asks `canReceive` first, a step conserves
    the bytes: what was pending and what is delivered is what leaves and what is
    pending then;
  * `receives_all`: so it is along every run, and no byte is overrun.
-/
import Bluepill.Rcc.Spec
import Bluepill.Uart

namespace Bluepill

namespace Stm32Uart

variable {env : UartEnv} {s t : Stm32Uart}

inductive RxEvent where
  | delivered (b : BitVec 8)
  | returned (b : BitVec 8)
  | discarded (b : BitVec 8)

namespace RxEvent

/-- A byte delivered to the enabled receiver. -/
def delivered? : RxEvent → Option (BitVec 8)
  | delivered b => some b
  | _ => none

/-- A byte that a read of `DR` returned. -/
def returned? : RxEvent → Option (BitVec 8)
  | returned b => some b
  | _ => none

/-- A byte that left the buffer, and whether a read of `DR` returned it. -/
def left? : RxEvent → Option (BitVec 8 × Bool)
  | returned b => some (b, true)
  | discarded b => some (b, false)
  | delivered _ => none

/-- The bytes returned are those that left the buffer without those discarded. -/
theorem returned_eq (e : List RxEvent) : e.filterMap returned? =
    ((e.filterMap left?).filter Prod.snd).map Prod.fst := by
  induction e with
  | nil => rfl
  | cons x e ih =>
    cases x with
    | delivered b => exact ih
    | returned b => exact congrArg (b :: ·) ih
    | discarded b => exact ih

end RxEvent

/-- The byte in the buffer. -/
def Rx.pending (r : Rx) : List (BitVec 8) := if r.RXNE then [r.RDR.setWidth 8] else []

/-- What an operation from `s` does with received bytes. -/
def rxEvents (s : Stm32Uart) (o : UartEnv × Op) : List RxEvent :=
  match o.2 with
  | .receive buf => if s.CR1_UE && s.CR1_RE then buf.map .delivered else []
  | .read offset _ =>
    if offset / 4 * 4 = 4 then
      match s.drRead with
      | .ok (v, _) => [.returned (v.setWidth 8)]
      | .error _ => []
    else []
  | .write offset _ _ => if offset / 4 * 4 = 0 then s.rx.pending.map .discarded else []
  | .reset => s.rx.pending.map .discarded
  | _ => []

/-- The character layer delivers single bytes, and only when `canReceive` allows it. -/
def Polite (s : Stm32Uart) (o : UartEnv × Op) : Prop :=
  ∀ buf, o.2 = .receive buf → buf.length = 1 ∧ s.canReceive .shipped = true

/-- The buffer of a receiver that may receive is empty. -/
theorem empty_of_canReceive (h : s.canReceive .shipped = true) (he : (s.CR1_UE && s.CR1_RE) = true) :
    s.SR_RXNE = false := by
  unfold canReceive at h
  rw [if_pos he] at h
  split at h
  · cases h
  · rw [if_neg (show ¬ UartBuild.shipped.enableOverrun = true by decide)] at h
    simpa using h

/-- What a step does with the bytes, when no overrun is there before it. -/
structure Conserves (s t : Stm32Uart) (e : List RxEvent) : Prop where
  noOverrun : t.SR_ORE = false
  conserved : s.rx.pending ++ e.filterMap RxEvent.delivered? =
    (e.filterMap RxEvent.left?).map Prod.fst ++ t.rx.pending
  kept : s.SR_RXNE = true → e.filterMap RxEvent.delivered? = [] ∧ t.RDR = s.RDR

/-- The buffer is not touched. -/
theorem Conserves.frame {ue re : Bool} (hs : s.SR_ORE = false)
    (hrx : t.rx = { s.rx with UE := ue, RE := re }) : Conserves s t [] where
  noOverrun := (congrArg Rx.ORE hrx).trans hs
  conserved := by rw [hrx]; simp [Rx.pending]
  kept _ := ⟨rfl, congrArg Rx.RDR hrx⟩

/-- The buffer is emptied. -/
theorem Conserves.discard (hORE : t.SR_ORE = false) (hRXNE : t.rx.RXNE = false)
    (hRDR : t.RDR = s.RDR) : Conserves s t (s.rx.pending.map .discarded) where
  noOverrun := hORE
  conserved := by
    have hpending : t.rx.pending = [] := if_neg (by rw [hRXNE]; decide)
    rw [hpending]
    unfold Rx.pending
    split <;> rfl
  kept _ := ⟨by unfold Rx.pending; split <;> rfl, hRDR⟩

/-- The byte in the buffer is read. -/
theorem Conserves.returned {v : BitVec 32} (hs : s.SR_ORE = false) (hv : s.drRead = .ok (v, t)) :
    Conserves s t [.returned (v.setWidth 8)] := by
  obtain ⟨hRXNE, rfl, -, hrx⟩ := drRead_parts hv
  have hpending : s.rx.pending = [s.RDR.setWidth 8] := if_pos hRXNE
  have hempty : t.rx.pending = [] := by rw [hrx]; rfl
  refine ⟨?_, ?_, ?_⟩
  · exact (congrArg Rx.ORE hrx).trans (by rw [hs]; rfl)
  · rw [hpending, hempty]; rfl
  · exact fun _ => ⟨rfl, congrArg Rx.RDR hrx⟩

/-- A byte comes into the empty buffer. -/
theorem Conserves.delivered {b : BitVec 8} (hs : s.SR_ORE = false) (hRXNE : s.SR_RXNE = false)
    (hrx : t.rx = { s.rx with RDR := b.setWidth 32, RXNE := true, ORE := s.SR_ORE || s.SR_RXNE }) :
    Conserves s t [.delivered b] := by
  have hempty : s.rx.pending = [] := if_neg (by rw [show s.rx.RXNE = false from hRXNE]; decide)
  have hpending : t.rx.pending = [b] := by
    rw [hrx, Rx.pending, if_pos rfl, BitVec.setWidth_setWidth_of_le b (by decide), BitVec.setWidth_eq]
  refine ⟨?_, ?_, ?_⟩
  · exact (congrArg Rx.ORE hrx).trans (by rw [hs, hRXNE]; rfl)
  · rw [hempty, hpending]; rfl
  · intro hfull; exact absurd (hRXNE.symm.trans hfull) (by decide)

theorem step_rx {o : UartEnv × Op} (hs : s.SR_ORE = false) (hp : s.Polite o)
    (h : step .shipped s o = .ok t) : Conserves s t (s.rxEvents o) := by
  obtain ⟨env, op⟩ := o
  cases op with
  | read offset size =>
    obtain ⟨⟨v, t'⟩, hv, ht⟩ := Machine.bind_eq_ok.1 h
    cases ht
    rcases (read_parts hv).2 with ⟨ho, v, hv, -⟩ | ⟨ho, hrx⟩
    · have hev : s.rxEvents (env, .read offset size) = [.returned (v.setWidth 8)] := by
        simp [rxEvents, ho, hv]
      rw [hev]
      exact Conserves.returned hs hv
    · rw [show s.rxEvents (env, .read offset size) = [] from if_neg ho]
      exact Conserves.frame hs hrx
  | write offset value size =>
    rcases write_parts h with ⟨ho, -, hrx⟩ | ⟨ho, h⟩ | ⟨ho, -, -, _, _, hrx⟩
    · rw [show s.rxEvents (env, .write offset value size) = _ from if_pos ho]
      exact Conserves.discard ((congrArg Rx.ORE hrx).trans hs) (by rw [hrx]) (congrArg Rx.RDR hrx)
    · have hrx := drWrite_rx .shipped h
      rw [show s.rxEvents (env, .write offset value size) = [] from if_neg (by omega)]
      exact Conserves.frame hs hrx
    · rw [show s.rxEvents (env, .write offset value size) = [] from if_neg ho]
      exact Conserves.frame hs hrx
  | receive buf =>
    obtain ⟨b, l, rfl, -, hrx⟩ := receive_parts .shipped h
    obtain ⟨hlen, hcan⟩ := hp _ rfl
    obtain rfl : l = [] := by simpa using hlen
    by_cases he : (s.CR1_UE && s.CR1_RE) = true
    · rw [show s.rxEvents (env, .receive [b]) = [.delivered b] from if_pos he]
      rw [if_pos he] at hrx
      exact Conserves.delivered hs (empty_of_canReceive hcan he) hrx
    · rw [show s.rxEvents (env, .receive [b]) = [] from if_neg he]
      rw [if_neg he] at hrx
      exact Conserves.frame hs hrx
  | rxTimer =>
    have hrx : t.rx = s.rx := by
      cases h
      dsimp only
      split <;> rfl
    exact Conserves.frame hs hrx
  | txTimer =>
    have hrx : t.rx = s.rx := by
      cases h
      dsimp only
      split
      · exact txComplete_rx .shipped _
      · rfl
    exact Conserves.frame hs hrx
  | txDmaTimer =>
    have hrx : t.rx = s.rx := by
      cases h
      dsimp only
      split
      · exact txDmaTimerExpire_rx .shipped _
      · rfl
    exact Conserves.frame hs hrx
  | clkIrq level =>
    have hrx := (clkIrqHandler_parts h).2
    exact Conserves.frame hs hrx
  | reset =>
    obtain ⟨-, hrx⟩ := reset_parts h
    exact Conserves.discard (congrArg Rx.ORE hrx) (by rw [hrx]) (congrArg Rx.RDR hrx)

/-- The bytes delivered are those that left the buffer, in order and each once, and
    the one in it. -/
structure Accounts (e : List RxEvent) (t : Stm32Uart) : Prop where
  noOverrun : t.SR_ORE = false
  delivered : e.filterMap RxEvent.delivered? =
    (e.filterMap RxEvent.left?).map Prod.fst ++ t.rx.pending

theorem Accounts.step {e : List RxEvent} {o : UartEnv × Op} (hs : Accounts e s) (hp : s.Polite o)
    (h : step .shipped s o = .ok t) : Accounts (e ++ s.rxEvents o) t := by
  have hstep := step_rx hs.noOverrun hp h
  refine ⟨hstep.noOverrun, ?_⟩
  simp only [List.filterMap_append, List.map_append, List.append_assoc]
  rw [hs.delivered, List.append_assoc, hstep.conserved]

theorem accounts_start {periph : Periph} {chr : Bool} {map : BitVec 32}
    (h : start .shipped env periph chr map = .ok s) : Accounts [] s := by
  obtain ⟨-, hrx⟩ := start_parts h
  exact ⟨congrArg Rx.ORE hrx, by rw [hrx]; rfl⟩

/-- A read at the address of `DR` returns the byte in the low 8 bits of its value. -/
theorem read_dr {size : ℕ} {v : BitVec 64} (hsize : 0 < size) (hsize' : size ≤ 4)
    (h : s.read 4 size = .ok (v, t)) :
    s.rxEvents (env, .read 4 size) = [.returned (v.setWidth 8)] := by
  rcases (read_parts h).2 with ⟨-, w, hw, rfl⟩ | ⟨ho, -⟩
  · have hlow : (extract64 (w.setWidth 64) 0 (size * 8)).setWidth 8 = w.setWidth 8 := by
      rw [extract64, Word.setWidth_extract_zero _ (by omega) (by omega),
        BitVec.setWidth_setWidth_of_le w (by decide)]
    rw [show 4 % 4 * 8 = 0 from rfl, hlow]
    simp [rxEvents, hw]
  · exact absurd rfl ho

/-- **Nothing received is lost.**  If the character layer delivers single bytes, and
    only when `canReceive` allows it, then along every run no overrun occurs, the bytes
    that reads of `DR` returned are those delivered to the enabled receiver, in order and
    each once, without those discarded and the one in the buffer, and the byte in
    the buffer is never overwritten. -/
theorem receives_all {periph : Periph} {chr : Bool} {map : BitVec 32}
    {l : List (UartEnv × Op)} (h : start .shipped env periph chr map = .ok s)
    (hp : ∀ t o, Machine.Takes (step .shipped) s l t o → t.Polite o) :
    (∀ l₁ l₂ t, l = l₁ ++ l₂ → Machine.run (step .shipped) s l₁ = .ok t →
      ∀ e, e = Machine.trace (step .shipped) rxEvents s l₁ →
        t.SR_ORE = false ∧
        e.filterMap RxEvent.delivered? = (e.filterMap RxEvent.left?).map Prod.fst ++ t.rx.pending ∧
        e.filterMap RxEvent.returned? = ((e.filterMap RxEvent.left?).filter Prod.snd).map Prod.fst) ∧
    (∀ t o t', Machine.Takes (step .shipped) s l t o → step .shipped t o = .ok t' →
      t.SR_RXNE = true → (t.rxEvents o).filterMap RxEvent.delivered? = [] ∧ t'.RDR = t.RDR) ∧
    (∀ t env size v t', 0 < size → size ≤ 4 → read t 4 size = .ok (v, t') →
      t.rxEvents (env, .read 4 size) = [.returned (v.setWidth 8)]) := by
  have hacc : ∀ l₁ l₂ t, l = l₁ ++ l₂ → Machine.run (step .shipped) s l₁ = .ok t →
      Accounts (Machine.trace (step .shipped) rxEvents s l₁) t := by
    rintro l₁ l₂ t rfl hr₁
    exact Machine.trace_inv (C := Polite) (fun e t o u ht hpo hu => ht.step hpo hu) (accounts_start h)
      (fun t o ho => hp t o (ho.append l₂)) hr₁
  refine ⟨?_, ?_, fun t env size v t' => read_dr⟩
  · rintro l₁ l₂ t hl hr₁ e rfl
    have ht := hacc l₁ l₂ t hl hr₁
    exact ⟨ht.noOverrun, ht.delivered, RxEvent.returned_eq _⟩
  · intro t o t' ho ht' hRXNE
    have hpo := hp t o ho
    obtain ⟨l₁, l₂, hl, hr₁⟩ := ho
    exact (step_rx (hacc l₁ (o :: l₂) t hl hr₁).noOverrun hpo ht').kept hRXNE

/-- A byte delivered to the enabled `UART1` and read. -/
theorem receives_all_enabled : ∃ rcc s u, Stm32Rcc.Reachable zeroHost 8000000 32768 rcc ∧
    start .shipped (readyEnv rcc) .UART1 true 0 = .ok s ∧
    Machine.run (step .shipped) s [(readyEnv rcc, .write 0x0c 0x200c 4),
      (readyEnv rcc, .receive [0x41]), (readyEnv rcc, .read 0x04 4)] = .ok u ∧
    u.SR_ORE = false ∧
    (Machine.trace (step .shipped) rxEvents s [(readyEnv rcc, .write 0x0c 0x200c 4),
      (readyEnv rcc, .receive [0x41]), (readyEnv rcc, .read 0x04 4)]).filterMap
        RxEvent.returned? = [0x41] := by
  obtain ⟨rcc, hrcc⟩ := Stm32Rcc.exists_reachable zeroHost 8000000 32768
  have hrecv : step .shipped enabled (readyEnv rcc, .receive [0x41]) =
      .ok { enabled with RDR := 0x41, SR_RXNE := true, rxTimer := some 0 } := by
    with_unfolding_all rfl
  have hread : step .shipped { enabled with RDR := 0x41, SR_RXNE := true, rxTimer := some 0 }
      (readyEnv rcc, .read 0x04 4) = .ok { enabled with RDR := 0x41, rxTimer := some 0 } := by
    with_unfolding_all rfl
  have hrun : Machine.run (step .shipped) idle [(readyEnv rcc, .write 0x0c 0x200c 4),
      (readyEnv rcc, .receive [0x41]), (readyEnv rcc, .read 0x04 4)] =
        .ok { enabled with RDR := 0x41, rxTimer := some 0 } :=
    Machine.run_cons_ok.2 ⟨enabled, step_enabled rcc, Machine.run_cons_ok.2 ⟨_, hrecv,
      Machine.run_cons_ok.2 ⟨_, hread, rfl⟩⟩⟩
  have hpolite : ∀ t o, Machine.Takes (step .shipped) idle [(readyEnv rcc, .write 0x0c 0x200c 4),
      (readyEnv rcc, .receive [0x41]), (readyEnv rcc, .read 0x04 4)] t o → t.Polite o := by
    intro t o ho buf hbuf
    rcases Machine.takes_cons ho with ⟨-, rfl⟩ | ⟨t₁, ht₁, ho⟩
    · cases hbuf
    cases (step_enabled rcc).symm.trans ht₁
    rcases Machine.takes_cons ho with ⟨rfl, rfl⟩ | ⟨t₂, -, ho⟩
    · cases hbuf; exact ⟨rfl, rfl⟩
    rcases Machine.takes_cons ho with ⟨-, rfl⟩ | ⟨t₃, -, l₁, l₂, hl, -⟩
    · cases hbuf
    · simp at hl
  obtain ⟨hORE, -, -⟩ := (receives_all (start_idle (readyEnv rcc)) hpolite).1 _ [] _
    (List.append_nil _).symm hrun _ rfl
  refine ⟨rcc, idle, _, hrcc, start_idle _, hrun, hORE, ?_⟩
  with_unfolding_all rfl

end Stm32Uart

end Bluepill
