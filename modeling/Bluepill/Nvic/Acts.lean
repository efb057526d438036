/-
  What the NVIC does, as actions on the GIC.

  An access to a register is a list of actions on single interrupts, each of which is small;
  `step_acts` says which.  What every action keeps, every operation keeps.
-/
import Bluepill.Nvic

namespace Bluepill

open Machine

namespace Gic

/-- The actions.  `enable` is a write to an enable of the System Handler Control, `update` the
    call of `gic_update` that ends a write. -/
inductive Act where
  | pend (irq : ℕ)
  | line (line : ℕ) (level : Bool)
  | acknowledge
  | complete (irq : ℕ)
  | setEnabled (irq : ℕ)
  | clearEnabled (irq : ℕ)
  | setPending (irq : ℕ)
  | clearPending (irq : ℕ)
  | setPriority (irq : ℕ) (val : BitVec 8)
  | configure (irq : ℕ) (model edgeTrigger : Bool)
  | enable (irq : ℕ) (on : Bool)
  | update
  | reset

def noVector : Fault := .hwError "Interrupt but no vector\n"

def act (s : Gic) : Act → Except Fault Gic
  | .pend irq => .ok (s.setPendingPrivate irq)
  | .line line level => .ok (s.setIrq line level)
  | .acknowledge =>
    let (irq, s) := s.acknowledgeIrq
    if irq = NONE then .error noVector else .ok s
  | .complete irq => s.completeIrq irq
  | .setEnabled irq => .ok (s.setEnabled irq)
  | .clearEnabled irq => .ok (s.clearEnabled irq)
  | .setPending irq => .ok (s.setPending irq)
  | .clearPending irq => .ok (s.clearPending irq)
  | .setPriority irq val => .ok (s.setPriority irq val)
  | .configure irq model edgeTrigger =>
    .ok (s.modIrq irq fun st => { st with model := model, edgeTrigger := edgeTrigger })
  | .enable irq on => .ok (s.modIrq irq fun i => { i with enabled := on })
  | .update => .ok s.update
  | .reset => .ok s.reset

/-- The actions of a write to a register of eight interrupts. -/
def octetActs (base offset : ℕ) (value : BitVec 32) (f : ℕ → Act) : List Act :=
  let irq := octet base offset
  if irq ≥ numIrq then []
  else ((List.range 8).filter value.getLsbD).map (fun i => f (irq + i)) ++ [.update]

/-- The actions of `gic_dist_writeb`, from `0x100` on. -/
def writebActs (offset : ℕ) (value : BitVec 32) : List Act :=
  if offset < 0x180 then octetActs 0x100 offset value .setEnabled
  else if offset < 0x200 then octetActs 0x180 offset value .clearEnabled
  else if offset < 0x280 then octetActs 0x200 offset value .setPending
  else if offset < 0x300 then octetActs 0x280 offset value .clearPending
  else if offset < 0x400 then []
  else if offset < 0x800 then
    let irq := offset - 0x400 + GIC_BASE_IRQ
    if irq ≥ numIrq then [] else [.setPriority irq (value.setWidth 8), .update]
  else if offset < 0xc00 then [.update]
  else if offset < 0xf00 then
    let irq := (offset - 0xc00) * 4 + GIC_BASE_IRQ
    if irq ≥ numIrq then []
    else (List.range 4).map (fun i =>
      .configure (irq + i) (value.getLsbD (i * 2)) (value.getLsbD (i * 2 + 1))) ++ [.update]
  else []

def writewActs (offset : ℕ) (value : BitVec 32) : List Act :=
  writebActs offset (value &&& 0xff) ++ writebActs (offset + 1) (value >>> 8)

def writeActs (offset : ℕ) (value : BitVec 32) : AccessSize → List Act
  | .byte => writebActs offset value
  | .half => writewActs offset value
  | .word => writewActs offset (value &&& 0xffff) ++ writewActs (offset + 2) (value >>> 16)

variable {s : Gic}

theorem run_octetActs {base offset : ℕ} {value : BitVec 32} {f : ℕ → Act} {g : Gic → ℕ → Gic}
    (h : ∀ s irq, act s (f irq) = .ok (g s irq)) : run act s (octetActs base offset value f) =
      .ok (if octet base offset ≥ numIrq then s else (s.forBits (octet base offset) value g).update) := by
  refine run_ite (fun _ => rfl) fun _ => ?_
  have hloop := run_map_ok (f := fun i => f (octet base offset + i))
    (g := fun s i => g s (octet base offset + i)) (fun s i => h s _)
    ((List.range 8).filter value.getLsbD) s
  refine run_append_ok.2 ⟨_, hloop, ?_⟩
  rw [List.foldl_filter]
  rfl

theorem run_writebActs {offset : ℕ} (hoffset : 0x100 ≤ offset) (value : BitVec 32) :
    run act s (writebActs offset value) = .ok (s.distWriteb offset value) := by
  unfold writebActs distWriteb
  rw [if_neg (show ¬ offset < 0x100 by omega)]
  refine run_ite (fun _ => run_octetActs fun _ _ => rfl) fun _ => ?_
  refine run_ite (fun _ => run_octetActs fun _ _ => rfl) fun _ => ?_
  refine run_ite (fun _ => run_octetActs fun _ _ => rfl) fun _ => ?_
  refine run_ite (fun _ => run_octetActs fun _ _ => rfl) fun _ => ?_
  refine run_ite (fun _ => rfl) fun _ => ?_
  refine run_ite (fun _ => run_ite (fun _ => rfl) fun _ => rfl) fun _ => ?_
  refine run_ite (fun _ => rfl) fun _ => ?_
  refine run_ite (fun _ => run_ite (fun _ => rfl) fun _ => ?_) fun _ => rfl
  have hconfigure : ∀ (s : Gic) (i : ℕ), act s (.configure ((offset - 0xc00) * 4 + GIC_BASE_IRQ + i)
      (value.getLsbD (i * 2)) (value.getLsbD (i * 2 + 1))) = .ok _ := fun _ _ => rfl
  have hloop := run_map_ok hconfigure (List.range 4) s
  exact run_append_ok.2 ⟨_, hloop, rfl⟩

theorem run_writeActs {offset : ℕ} (hoffset : 0x100 ≤ offset) (value : BitVec 32)
    (size : AccessSize) : run act s (writeActs offset value size) = .ok (s.distWrite offset value size) := by
  have hw : ∀ (s : Gic) (offset : ℕ) (value : BitVec 32), 0x100 ≤ offset →
      run act s (writewActs offset value) = .ok (s.distWritew offset value) := by
    intro s offset value hoffset
    exact run_append_ok.2 ⟨_, run_writebActs hoffset _, run_writebActs (by omega) _⟩
  cases size with
  | byte => exact run_writebActs hoffset value
  | half => exact hw s offset value hoffset
  | word => exact run_append_ok.2 ⟨_, hw s offset _ hoffset, hw _ _ _ (by omega)⟩

end Gic

open Gic

namespace Nvic

/-- The actions for an exception in the Interrupt Control State. -/
def pendingActs (value : BitVec 32) (irq set clear : ℕ) : List Act :=
  if value.getLsbD set then [.pend irq]
  else if value.getLsbD clear then [.clearPending irq, .update]
  else []

def writelActs (offset : ℕ) (value : BitVec 32) : List Act :=
  match offset with
  | 0xd04 => (if value.getLsbD 31 then [.pend ARMV7M_EXCP_NMI] else [])
    ++ pendingActs value ARMV7M_EXCP_PENDSV 28 27 ++ pendingActs value ARMV7M_EXCP_SYSTICK 26 25
  | 0xd24 => [.enable ARMV7M_EXCP_MEM (value.getLsbD 16), .enable ARMV7M_EXCP_BUS (value.getLsbD 17),
    .enable ARMV7M_EXCP_USAGE (value.getLsbD 18)]
  | 0xf00 => if (value &&& 0x1ff).toNat < numIrq then [.pend (value &&& 0x1ff).toNat] else []
  | _ => []

def sysregActs (offset : ℕ) (value : BitVec 64) (size : AccessSize) : List Act :=
  if 0xd18 ≤ offset ∧ offset ≤ 0xd23 then
    (List.range size.bytes).map (fun i =>
      .setPriority (offset - 0xd14 + i) ((value >>> (i * 8)).setWidth 8)) ++ [.update]
  else if size = .word then writelActs offset (value.setWidth 32)
  else []

/-- **The actions of an operation.** -/
def acts (s : Nvic) : Op → List Act
  | .setIrq line level => [.line line level]
  | .setPending irq => [.pend irq]
  | .acknowledge => [.acknowledge]
  | .complete irq => [.complete (fromVector irq)]
  | .read _ _ => []
  | .write offset value size =>
    if 0x100 ≤ offset ∧ offset < 0xd00 then Gic.writeActs offset (value.setWidth 32) size
    else sysregActs offset value size
  | .tick => if s.systick.timer.isSome && s.systick.has SYSTICK_TICKINT then [.pend ARMV7M_EXCP_SYSTICK] else []
  | .reset => [.reset]

variable {env : NvicEnv} {s t : Nvic}

theorem run_pendingActs {value : BitVec 32} {irq set clear : ℕ} (hirq : irq < 16) :
    run act s.gic (pendingActs value irq set clear) = .ok (s.writePending value irq set clear).gic := by
  have hvector : fromVector irq = irq := if_neg (by omega)
  unfold pendingActs writePending
  split_ifs
  · show Except.ok (s.gic.setPendingPrivate irq) = .ok (s.gic.setPendingPrivate (fromVector irq))
    rw [hvector]
  · rfl
  · rfl

theorem run_writelActs {offset : ℕ} {value : BitVec 32} :
    run act s.gic (writelActs offset value) = .ok (s.writel env offset value).gic := by
  unfold writelActs writel
  split
  · dsimp only
    refine run_append_ok.2 ⟨_, run_append_ok.2 ⟨_, ?_, run_pendingActs (by decide)⟩,
      run_pendingActs (by decide)⟩
    split_ifs <;> rfl
  · rfl
  · split_ifs <;> rfl
  · split <;> first | rfl | contradiction

theorem run_sysregActs {offset : ℕ} {value : BitVec 64} {size : AccessSize} :
    run act s.gic (sysregActs offset value size) = .ok (s.sysregWrite env offset value size).gic := by
  unfold sysregActs sysregWrite
  split_ifs with hrange
  · -- the handlers are internal, so their priorities are in `priority1`
    have hsize : size.bytes ≤ 4 := by cases size <;> decide
    have hloop : ∀ (n : ℕ) (g : Gic), n ≤ 4 → (List.range n).foldl (fun g i =>
        g.setPriority (offset - 0xd14 + i) ((value >>> (i * 8)).setWidth 8)) g =
        { g with priority1 := (List.range n).foldl (fun p i =>
          Function.update p (offset - 0xd14 + i) ((value >>> (i * 8)).setWidth 8)) g.priority1 } := by
      intro n g hn
      induction n with
      | zero => rfl
      | succ n ih =>
        have hinternal : offset - 0xd14 + n < GIC_INTERNAL := by
          show _ < 32
          omega
        rw [List.range_succ, List.foldl_append, ih (by omega), List.foldl_append]
        exact if_pos hinternal
    have hset : ∀ (g : Gic) (i : ℕ), act g (.setPriority (offset - 0xd14 + i)
        ((value >>> (i * 8)).setWidth 8)) = .ok _ := fun _ _ => rfl
    have hrun := run_map_ok hset (List.range size.bytes) s.gic
    refine run_append_ok.2 ⟨_, hrun, ?_⟩
    rw [hloop _ _ hsize]
    simp only [run, act]
  · exact run_writelActs
  · rfl

theorem readl_gic {offset : ℕ} {r : BitVec 32 × Nvic} (h : s.readl env offset = .ok r) :
    r.2.gic = s.gic := by
  unfold readl at h
  split at h
  case h_4 =>
    obtain ⟨v, -, h⟩ := bind_eq_ok.1 h
    cases h
    rfl
  all_goals
    cases h
    rfl

theorem read_gic {offset : ℕ} {size : AccessSize} {r : BitVec 32 × Nvic}
    (h : s.read env offset size = .ok r) : r.2.gic = s.gic := by
  unfold read at h
  split at h
  · cases h
    rfl
  unfold sysregRead at h
  split at h
  · cases h
    rfl
  split at h
  · cases h
    rfl
  split at h
  · exact readl_gic h
  · cases h
    rfl

/-- **An operation is a run of its actions.** -/
theorem step_acts {o : NvicEnv × Op} (h : step s o = .ok t) : run act s.gic (s.acts o.2) = .ok t.gic := by
  obtain ⟨env, o⟩ := o
  cases o with
  | setIrq line level =>
    cases h
    rfl
  | setPending irq =>
    cases h
    have hvector : fromVector irq = irq := if_neg (by omega)
    show Except.ok (s.gic.setPendingPrivate irq) = .ok (s.gic.setPendingPrivate (fromVector irq))
    rw [hvector]
  | acknowledge =>
    have h' : s.acknowledgeIrq.map Prod.snd = .ok t := h
    simp only [acknowledgeIrq] at h'
    simp only [acts, run, act]
    split_ifs at h' ⊢ with hnone
    · cases h'
    · cases h'
      rfl
  | complete irq =>
    obtain ⟨g, hg, h⟩ := bind_eq_ok.1 h
    cases h
    exact run_cons_ok.2 ⟨g, hg, rfl⟩
  | read offset size =>
    have h' : (s.read env offset size).map Prod.snd = .ok t := h
    cases hr : s.read env offset size with
    | error e => rw [hr] at h'; cases h'
    | ok r =>
      rw [hr] at h'
      cases h'
      exact congrArg Except.ok (read_gic hr).symm
  | write offset value size =>
    cases h
    simp only [acts, write]
    split_ifs with hrange
    · exact run_writeActs hrange.1 _ size
    · exact run_sysregActs
  | tick =>
    cases h
    simp only [acts]
    cases htimer : s.systick.timer.isSome with
    | false => rfl
    | true =>
      simp only [Bool.true_and, if_true, systickTimerTick]
      split_ifs <;> rfl
  | reset =>
    cases h
    rfl

end Nvic

end Bluepill
