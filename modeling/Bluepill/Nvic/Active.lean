/-
  The active interrupts of the NVIC.

  The GIC keeps no set of active interrupts, but a list of them: `running_irq` is the head, and
  `last_active` leads from each to the one it preempted.  The list is a stack: an acknowledgement
  puts an interrupt on top, a completion takes one out, and each has a lesser priority value than
  the one it preempted (`Stack`).

  `active_stack`: in every run the list is the one that the acknowledgements and completions
  make, as long as no write changes the priority of an active interrupt.  In particular the loop
  that looks for the interrupt to take out ends.
-/
import Bluepill.Lib.Chain
import Bluepill.Lib.Word
import Bluepill.Nvic.Request

namespace Bluepill

open Machine Chain

namespace Gic

/-- An entry of the list. -/
def link (irq : ℕ) : Option ℕ := if irq = NONE then none else some irq

/-- The interrupt that `irq` preempted. -/
def last (s : Gic) (irq : ℕ) : Option ℕ := link (s.lastActive irq)

/-- **The active interrupts are `l`**, the running one first. -/
structure Stack (s : Gic) (l : List ℕ) : Prop where
  linked : Linked s.last (link s.runningIrq) l
  lt : ∀ irq ∈ l, irq < numIrq
  sorted : l.Pairwise fun a b => s.getPriority a < s.getPriority b
  priority : s.runningPriority = (l.head?.map s.getPriority).getD 0x100

variable {s t : Gic} {l : List ℕ} {irq n : ℕ}

@[simp] theorem link_none : link NONE = none := if_pos rfl

theorem link_of_lt (h : irq < numIrq) : link irq = some irq := by
  refine if_neg ?_
  rintro rfl
  exact absurd h (by decide)

theorem link_eq_none : link irq = none ↔ irq = NONE := by
  simp [link]

theorem link_eq_some : link irq = some n ↔ irq ≠ NONE ∧ irq = n := by
  simp [link]

theorem last_update (s : Gic) (tmp irq : ℕ) :
    last { s with lastActive := Function.update s.lastActive tmp irq } =
      Function.update s.last tmp (link irq) := by
  funext x
  by_cases hx : x = tmp
  · subst hx
    simp [last]
  · simp [last, hx]

/-- **The loop takes `irq` out of the list**, and ends. -/
theorem unlinkFrom_linked (irq : ℕ) {tmp fuel : ℕ} (hl : Linked s.last (some tmp) (tmp :: l))
    (hfuel : l.length < fuel) : ∃ f, s.unlinkFrom irq fuel tmp = .ok { s with lastActive := f } ∧
      (∀ x, x ∉ tmp :: l → f x = s.lastActive x) ∧
      Linked (last { s with lastActive := f }) (some tmp) (tmp :: l.erase irq) := by
  induction l generalizing tmp fuel with
  | nil =>
    obtain ⟨fuel, rfl⟩ := Nat.exists_eq_succ_of_ne_zero (Nat.ne_of_gt hfuel)
    have hnone : s.lastActive tmp = NONE := link_eq_none.1 (Linked.nil_iff.1 (Linked.cons_iff.1 hl).2)
    exact ⟨s.lastActive, by rw [unlinkFrom, if_pos hnone], fun x _ => rfl, hl⟩
  | cons b l ih =>
    obtain ⟨fuel, rfl⟩ := Nat.exists_eq_succ_of_ne_zero (Nat.ne_of_gt (Nat.zero_lt_of_lt hfuel))
    obtain ⟨hb, hrest⟩ := Linked.cons_iff.1 (Linked.cons_iff.1 hl).2
    obtain ⟨hsome, hlast⟩ := link_eq_some.1 hb
    have hstep : s.unlinkFrom irq (fuel + 1) tmp =
        if b = irq then .ok { s with lastActive := Function.update s.lastActive tmp (s.lastActive irq) }
        else s.unlinkFrom irq fuel b := by
      rw [unlinkFrom, if_neg hsome, hlast]
    by_cases hirq : b = irq
    · subst hirq
      refine ⟨_, hstep.trans (if_pos rfl), fun x hx => ?_, ?_⟩
      · refine Function.update_of_ne ?_ _ _
        rintro rfl
        exact hx List.mem_cons_self
      · rw [List.erase_cons_head, last_update]
        exact hl.unlink
    · have hfuel' : l.length < fuel := by
        simp at hfuel
        omega
      obtain ⟨f, hf, hkeep, hlinked⟩ := ih (.cons hrest) hfuel'
      have htmp : f tmp = s.lastActive tmp := hkeep tmp hl.head_notMem
      refine ⟨f, hstep.trans ((if_neg hirq).trans hf), fun x hx => ?_, ?_⟩
      · exact hkeep x fun hmem => hx (List.mem_cons_of_mem tmp hmem)
      · rw [List.erase_cons_tail (by simpa using hirq)]
        refine .cons ?_
        show Linked _ (link (f tmp)) _
        rw [htmp, show link (s.lastActive tmp) = some b from hb]
        exact hlinked

/-! ## What an action does to the stack -/

/-- `t` has the list of active interrupts of `s`, and the same priorities of the interrupts `l`. -/
structure Same (l : List ℕ) (s t : Gic) : Prop where
  lastActive : t.lastActive = s.lastActive
  runningIrq : t.runningIrq = s.runningIrq
  runningPriority : t.runningPriority = s.runningPriority
  getPriority : ∀ irq ∈ l, t.getPriority irq = s.getPriority irq

theorem Same.trans {u : Gic} (h : Same l s t) (h' : Same l t u) : Same l s u where
  lastActive := h'.lastActive.trans h.lastActive
  runningIrq := h'.runningIrq.trans h.runningIrq
  runningPriority := h'.runningPriority.trans h.runningPriority
  getPriority irq hirq := (h'.getPriority irq hirq).trans (h.getPriority irq hirq)

theorem same_modIrq (l : List ℕ) (s : Gic) (irq : ℕ) (f : GicIrqState → GicIrqState) :
    Same l s (s.modIrq irq f) :=
  ⟨rfl, rfl, rfl, fun _ _ => rfl⟩

theorem same_update (l : List ℕ) (s : Gic) : Same l s s.update := by
  rw [update_eq]
  exact ⟨rfl, rfl, rfl, fun _ _ => rfl⟩

theorem Stack.same (h : s.Stack l) (hst : Same l s t) : t.Stack l := by
  have hlast : t.last = s.last := by
    funext irq
    rw [last, last, hst.lastActive]
  refine ⟨?_, h.lt, h.sorted.imp_of_mem fun ha hb hlt => ?_, ?_⟩
  · rw [hlast, hst.runningIrq]
    exact h.linked
  · rw [hst.getPriority _ ha, hst.getPriority _ hb]
    exact hlt
  · rw [hst.runningPriority, h.priority]
    cases l with
    | nil => rfl
    | cons a l => simp [hst.getPriority a List.mem_cons_self]

theorem Stack.update (h : s.Stack l) : s.update.Stack l := h.same (same_update l s)

theorem same_repend (l : List ℕ) (s : Gic) (irq : ℕ) : Same l s (s.repend irq) := by
  unfold repend
  split
  · exact same_modIrq l s irq _
  · exact ⟨rfl, rfl, rfl, fun _ _ => rfl⟩

theorem Stack.repend (h : s.Stack l) : (s.repend irq).Stack l := h.same (same_repend l s irq)

theorem getPriority_setPriority (s : Gic) (irq : ℕ) (val : BitVec 8) (x : ℕ) :
    (s.setPriority irq val).getPriority x = if x = irq then val.toNat else s.getPriority x := by
  unfold setPriority getPriority
  by_cases hirq : irq < GIC_INTERNAL
  · rw [if_pos hirq]
    by_cases hx : x = irq
    · subst hx
      simp [hirq]
    · simp [hx]
  · rw [if_neg hirq]
    by_cases hx : x = irq
    · subst hx
      simp [hirq]
    · by_cases hx' : x < GIC_INTERNAL
      · simp [hx, hx']
      · have hne : x - GIC_INTERNAL ≠ irq - GIC_INTERNAL := by omega
        simp [hx, hx', hne]

/-- The running interrupt has the least priority value. -/
theorem Stack.le_of_mem (h : s.Stack l) (hirq : irq ∈ l) : s.runningPriority ≤ s.getPriority irq := by
  rw [h.priority]
  cases l with
  | nil => cases hirq
  | cons a l =>
    rcases List.mem_cons.1 hirq with rfl | hmem
    · exact le_rfl
    · exact (List.rel_of_pairwise_cons h.sorted hmem).le

/-- An interrupt starts to run. -/
theorem stack_setRunningIrq (hl : Linked s.last (link irq) l) (hlt : ∀ x ∈ l, x < numIrq)
    (hsorted : l.Pairwise fun a b => s.getPriority a < s.getPriority b) : (s.setRunningIrq irq).Stack l := by
  refine Stack.update ⟨hl, hlt, hsorted, ?_⟩
  cases l with
  | nil => exact if_pos (link_eq_none.1 (Linked.nil_iff.1 hl))
  | cons a l =>
    obtain ⟨hsome, rfl⟩ := link_eq_some.1 (Linked.cons_iff.1 hl).1
    exact if_neg hsome

/-- An acknowledgement puts an interrupt on the stack. -/
theorem Stack.acknowledge (h : s.Stack l) (hcur : s.currentPending < numIrq)
    (ha : act s .acknowledge = .ok t) : t.Stack (s.currentPending :: l) := by
  obtain ⟨-, hlt, rfl⟩ := act_acknowledge ha
  have hnot : s.currentPending ∉ l := fun hmem => absurd hlt (not_lt.2 (h.le_of_mem hmem))
  have hlinked := h.linked.push hnot
  rw [← last_update, ← link_of_lt hcur] at hlinked
  refine stack_setRunningIrq hlinked ?_ ?_
  · rw [List.forall_mem_cons]
    exact ⟨hcur, h.lt⟩
  · rw [List.pairwise_cons]
    exact ⟨fun irq hirq => hlt.trans_le (h.le_of_mem hirq), h.sorted⟩

theorem Stack.length_le (h : s.Stack l) : l.length ≤ numIrq := by
  have hsub : l ⊆ List.range numIrq := fun irq hirq => List.mem_range.2 (h.lt irq hirq)
  have hlength := (h.linked.nodup.subperm hsub).length_le
  rwa [List.length_range] at hlength

/-- A completion takes an interrupt out of the stack, and ends. -/
theorem Stack.complete (h : s.Stack l) (irq : ℕ) :
    ∃ t, s.completeIrq irq = .ok t ∧ t.Stack (l.erase irq) := by
  unfold completeIrq
  by_cases hirq : irq ≥ numIrq
  · rw [if_pos hirq, List.erase_of_not_mem fun hmem => absurd (h.lt irq hmem) (not_lt.2 hirq)]
    exact ⟨s, rfl, h⟩
  rw [if_neg hirq]
  cases l with
  | nil =>
    rw [if_pos (link_eq_none.1 (Linked.nil_iff.1 h.linked))]
    exact ⟨s, rfl, h⟩
  | cons r l =>
    obtain ⟨hsome, rfl⟩ := link_eq_some.1 (Linked.cons_iff.1 h.linked).1
    have hrep : (s.repend irq).Stack (s.runningIrq :: l) := h.repend
    obtain ⟨hhead, hrest⟩ := Linked.cons_iff.1 hrep.linked
    have hlt : ∀ x ∈ l, x < numIrq := fun x hx => h.lt x (List.mem_cons_of_mem _ hx)
    rw [if_neg hsome]
    by_cases hrun : irq = s.runningIrq
    · -- the running interrupt: the one it preempted runs again
      subst hrun
      rw [if_neg (not_not.2 rfl), List.erase_cons_head]
      refine ⟨_, rfl, stack_setRunningIrq ?_ hlt hrep.sorted.of_cons⟩
      rw [← (same_repend [] s s.runningIrq).lastActive]
      exact hrest
    · -- another one: the running one stays
      have hfuel : l.length < GIC_MAXIRQ + 1 := (Nat.lt_succ_of_lt h.length_le).trans (by decide)
      obtain ⟨f, hf, -, hlinked⟩ := unlinkFrom_linked irq (.cons hrest) hfuel
      have hsub : (s.runningIrq :: l.erase irq).Sublist (s.runningIrq :: l) :=
        List.erase_sublist.cons_cons _
      have hstack : Stack { s.repend irq with lastActive := f } (s.runningIrq :: l.erase irq) := by
        refine ⟨?_, fun x hx => h.lt x (hsub.subset hx), hrep.sorted.sublist hsub, hrep.priority⟩
        show Linked _ (link (s.repend irq).runningIrq) _
        rw [hhead]
        exact hlinked
      rw [if_pos hrun, hf, List.erase_cons_tail (by simpa using Ne.symm hrun)]
      refine ⟨_, rfl, ?_⟩
      split
      · exact hstack.update
      · exact hstack

/-- An action that takes or completes no interrupt.  The lines and registers are those of the external
    interrupts, and the System Handler Control has the enables of internal ones. -/
def Act.plain : Act → Bool
  | .acknowledge | .complete _ | .reset => false
  | .line n _ => n + GIC_INTERNAL < numIrq
  | .setEnabled irq | .setPending irq => GIC_INTERNAL ≤ irq
  | .enable irq _ => irq < GIC_NR_SGIS
  | _ => true

/-- What a plain action does to the state of the interrupt `irq`. -/
def Act.effect (irq : ℕ) : Act → GicIrqState → GicIrqState
  | .pend n, i | .setPending n, i => if irq = n then { i with pending := true } else i
  | .line n level, i =>
    if irq = n + GIC_INTERNAL ∧ level ≠ i.level then
      if level then { i with level := true, pending := i.pending || i.edgeTrigger || i.enabled }
      else { i with level := false }
    else i
  | .setEnabled n, i =>
    if irq = n then { i with enabled := true, pending := i.pending || i.level && !i.edgeTrigger } else i
  | .clearEnabled n, i => if irq = n then { i with enabled := false } else i
  | .clearPending n, i => if irq = n then { i with pending := false } else i
  | .configure n model edgeTrigger, i =>
    if irq = n then { i with model := model, edgeTrigger := edgeTrigger } else i
  | .enable n on, i => if irq = n then { i with enabled := on } else i
  | _, i => i

theorem modIrq_irqState (s : Gic) (n : ℕ) (f : GicIrqState → GicIrqState) (irq : ℕ) :
    (s.modIrq n f).irqState irq = if irq = n then f (s.irqState irq) else s.irqState irq := by
  by_cases h : irq = n
  · subst h
    simp [modIrq]
  · simp [modIrq, h]

theorem modIrq_congr {f g : GicIrqState → GicIrqState} (h : f (s.irqState irq) = g (s.irqState irq)) :
    s.modIrq irq f = s.modIrq irq g := by
  rw [modIrq, modIrq, h]

theorem modIrq_modIrq (s : Gic) (irq : ℕ) (f g : GicIrqState → GicIrqState) :
    (s.modIrq irq f).modIrq irq g = s.modIrq irq fun i => g (f i) := by
  simp [modIrq]

theorem setIrq11mpcore_eq (s : Gic) (irq : ℕ) (level : Bool) : s.setIrq11mpcore irq level =
    s.modIrq irq fun i =>
      if level then { i with level := true, pending := i.pending || i.edgeTrigger || i.enabled }
      else { i with level := false } := by
  unfold setIrq11mpcore
  dsimp only
  split_ifs with hlevel htrigger
  all_goals simp only [modIrq_irqState, if_true] at *
  · rw [setPending, modIrq_modIrq]
    refine modIrq_congr ?_
    simp [htrigger, Bool.or_assoc]
  · refine modIrq_congr ?_
    simp [htrigger, Bool.or_assoc]

theorem setEnabled_eq (s : Gic) (irq : ℕ) : s.setEnabled irq = s.modIrq irq fun i =>
    { i with enabled := true, pending := i.pending || i.level && !i.edgeTrigger } := by
  unfold setEnabled
  dsimp only
  split_ifs with htrigger
  all_goals simp only [modIrq_irqState, if_true] at htrigger
  · rw [setPending, modIrq_modIrq]
    refine modIrq_congr ?_
    simp [htrigger]
  · refine modIrq_congr ?_
    simp [htrigger]

theorem update_irqState (s : Gic) : s.update.irqState = s.irqState := by
  rw [update_eq]

theorem setRunningIrq_irqState (s : Gic) (irq : ℕ) : (s.setRunningIrq irq).irqState = s.irqState := by
  rw [setRunningIrq, update_irqState]

/-- **A plain action changes the state of each interrupt on its own.** -/
theorem irqState_act {a : Act} (hplain : a.plain = true) (ht : act s a = .ok t) (irq : ℕ) :
    t.irqState irq = a.effect irq (s.irqState irq) := by
  cases a with
  | pend n =>
    cases ht
    simp only [setPendingPrivate, Act.effect]
    split
    · rename_i hpending
      by_cases hirq : irq = n
      · subst hirq
        rw [if_pos rfl, ← hpending]
      · rw [if_neg hirq]
    · rw [update_irqState]
      exact modIrq_irqState s n _ irq
  | line n level =>
    cases ht
    simp only [setIrq, Act.effect]
    split
    · rename_i hsame
      rw [if_neg]
      rintro ⟨rfl, hdiff⟩
      exact hdiff hsame
    · rename_i hdiff
      rw [update_irqState, setIrq11mpcore_eq, modIrq_irqState]
      by_cases hirq : irq = n + GIC_INTERNAL
      · subst hirq
        simp [hdiff]
      · simp [hirq]
  | setEnabled n =>
    cases ht
    rw [setEnabled_eq]
    exact modIrq_irqState s n _ irq
  | clearEnabled n | setPending n | clearPending n | configure n model edgeTrigger | enable n on =>
    cases ht
    exact modIrq_irqState s n _ irq
  | setPriority n val =>
    cases ht
    unfold setPriority
    split <;> rfl
  | update =>
    cases ht
    exact congrFun s.update_irqState irq
  | acknowledge | complete irq | reset => cases hplain

/-- An acknowledgement clears a pending bit. -/
theorem irqState_acknowledge (ht : act s .acknowledge = .ok t) (irq : ℕ) : t.irqState irq =
    if irq = s.currentPending then { s.irqState irq with pending := false } else s.irqState irq := by
  obtain ⟨-, -, rfl⟩ := act_acknowledge ht
  rw [setRunningIrq_irqState, clearPending, modIrq_irqState]

/-- A completion sets the pending bit of a raised interrupt. -/
theorem irqState_complete {n : ℕ} (ht : s.completeIrq n = .ok t) :
    ((n ≥ numIrq ∨ s.runningIrq = NONE) ∧ t = s) ∨ ∀ irq, t.irqState irq =
      if irq = n then { s.irqState irq with pending := (s.irqState irq).pending || s.raised irq }
      else s.irqState irq := by
  have hrep : ∀ irq, (s.repend n).irqState irq =
      if irq = n then { s.irqState irq with pending := (s.irqState irq).pending || s.raised irq }
      else s.irqState irq := by
    intro irq
    unfold repend
    split
    · rename_i hraised
      rw [setPending, modIrq_irqState]
      split
      · rename_i hirq
        rw [hirq, hraised, Bool.or_true]
      · rfl
    · rename_i hraised
      split
      · rename_i hirq
        rw [hirq, Bool.eq_false_iff.2 hraised, Bool.or_false]
      · rfl
  rcases completeIrq_cases ht with ⟨hno, rfl⟩ | ⟨-, -, -, u, hunlink, hor⟩ | ⟨-, -, -, rfl⟩
  · exact .inl ⟨hno, rfl⟩
  · obtain ⟨f, rfl⟩ := unlinkFrom_eq hunlink
    refine .inr fun irq => ?_
    rcases hor with rfl | ⟨rfl, -⟩
    · rw [update_irqState]
      exact hrep irq
    · exact hrep irq
  · refine .inr fun irq => ?_
    rw [setRunningIrq_irqState]
    exact hrep irq

/-- Only a line raises a level. -/
theorem Act.effect_level {a : Act} {i : GicIrqState} (h : (a.effect irq i).level = true) :
    i.level = true ∨ ∃ n, a = .line n true ∧ irq = n + GIC_INTERNAL := by
  cases a with
  | line n level =>
    simp only [effect] at h
    split_ifs at h with hirq hlevel
    · exact .inr ⟨n, by rw [hlevel], hirq.1⟩
    · exact .inl h
  | pend n | setEnabled n | clearEnabled n | setPending n | clearPending n | configure n model edgeTrigger
  | enable n on =>
    simp only [effect] at h
    split_ifs at h <;> exact .inl h
  | setPriority n val | acknowledge | complete n | update | reset => exact .inl h

/-- An action that does not change the priority of one of the interrupts `l`. -/
def Act.leaves (s : Gic) (l : List ℕ) : Act → Bool
  | .setPriority irq val => irq ∉ l || val.toNat = s.getPriority irq
  | _ => true

theorem same_act {a : Act} (hplain : a.plain = true) (hleaves : a.leaves s l = true)
    (ht : act s a = .ok t) : Same l s t := by
  have hrefl : Same l s s := ⟨rfl, rfl, rfl, fun _ _ => rfl⟩
  cases a with
  | pend irq =>
    cases ht
    unfold setPendingPrivate
    split
    · exact hrefl
    · exact (same_modIrq l s irq _).trans (same_update l _)
  | line line level =>
    cases ht
    unfold setIrq
    dsimp only
    split
    · exact hrefl
    · refine Same.trans ?_ (same_update l _)
      unfold setIrq11mpcore
      dsimp only
      split_ifs <;> exact ⟨rfl, rfl, rfl, fun _ _ => rfl⟩
  | setEnabled irq =>
    cases ht
    unfold setEnabled
    dsimp only
    split <;> exact ⟨rfl, rfl, rfl, fun _ _ => rfl⟩
  | clearEnabled irq | setPending irq | clearPending irq | configure irq model edgeTrigger | enable irq on =>
    cases ht
    exact same_modIrq l s irq _
  | setPriority irq val =>
    cases ht
    refine ⟨?_, ?_, ?_, fun x hx => ?_⟩
    · unfold setPriority; split <;> rfl
    · unfold setPriority; split <;> rfl
    · unfold setPriority; split <;> rfl
    · rw [getPriority_setPriority]
      split
      · rename_i hirq
        subst hirq
        simpa [Act.leaves, hx] using hleaves
      · rfl
  | update =>
    cases ht
    exact same_update l s
  | acknowledge | complete irq | reset => cases hplain

theorem Same.leaves {a : Act} (h : Same l s t) (ha : a.leaves s l = true) : a.leaves t l = true := by
  cases a with
  | setPriority irq val =>
    by_cases hirq : irq ∈ l
    · simpa [Act.leaves, hirq, h.getPriority irq hirq] using ha
    · simp [Act.leaves, hirq]
  | _ => rfl

theorem same_run {acts : List Act} (hacts : ∀ a ∈ acts, a.plain = true ∧ a.leaves s l = true)
    (ht : run act s acts = .ok t) : Same l s t := by
  induction acts generalizing s with
  | nil =>
    cases ht
    exact ⟨rfl, rfl, rfl, fun _ _ => rfl⟩
  | cons a acts ih =>
    obtain ⟨u, hu, ht⟩ := run_cons_ok.1 ht
    rw [List.forall_mem_cons] at hacts
    obtain ⟨ha, hacts⟩ := hacts
    have hsu : Same l s u := same_act ha.1 ha.2 hu
    exact hsu.trans (ih (fun b hb => ⟨(hacts b hb).1, hsu.leaves (hacts b hb).2⟩) ht)

/-! ## Runs of the NVIC -/

theorem plain_loop {f : ℕ → Act} (hf : ∀ i, (f i).plain = true) (is : List ℕ) :
    ∀ a ∈ is.map f ++ [.update], a.plain = true := by
  intro a ha
  rcases List.mem_append.1 ha with ha | ha
  · obtain ⟨i, -, rfl⟩ := List.mem_map.1 ha
    exact hf i
  · cases List.mem_singleton.1 ha
    rfl

theorem plain_octetActs {base offset : ℕ} {value : BitVec 32} {f : ℕ → Act}
    (hf : ∀ irq, GIC_INTERNAL ≤ irq → (f irq).plain = true) :
    ∀ a ∈ octetActs base offset value f, a.plain = true := by
  unfold octetActs
  dsimp only
  split
  · simp
  · refine plain_loop (fun i => hf _ ?_) _
    exact (Nat.le_add_left _ _).trans (Nat.le_add_right _ _)

theorem plain_writebActs (offset : ℕ) (value : BitVec 32) : ∀ a ∈ writebActs offset value, a.plain = true := by
  unfold writebActs
  dsimp only
  split_ifs
  all_goals first
    | exact plain_octetActs fun _ hirq => decide_eq_true hirq
    | exact plain_octetActs fun _ _ => rfl
    | exact plain_loop (fun _ => rfl) _
    | simp [Act.plain]

theorem plain_writeActs (offset : ℕ) (value : BitVec 32) (size : AccessSize) :
    ∀ a ∈ writeActs offset value size, a.plain = true := by
  have hw : ∀ offset value, ∀ a ∈ writewActs offset value, a.plain = true := fun offset value =>
    List.forall_mem_append.2 ⟨plain_writebActs _ _, plain_writebActs _ _⟩
  cases size with
  | byte => exact plain_writebActs _ _
  | half => exact hw _ _
  | word => exact List.forall_mem_append.2 ⟨hw _ _, hw _ _⟩

end Gic

namespace Nvic

open Gic

variable {s t : Nvic} {l : List ℕ}

theorem plain_sysregActs (offset : ℕ) (value : BitVec 64) (size : AccessSize) :
    ∀ a ∈ sysregActs offset value size, a.plain = true := by
  have hpending : ∀ (value : BitVec 32) irq set clear, ∀ a ∈ pendingActs value irq set clear, a.plain = true := by
    intro value irq set clear
    unfold pendingActs
    split_ifs <;> simp [Act.plain]
  unfold sysregActs
  split_ifs
  · exact plain_loop (fun _ => rfl) _
  · unfold writelActs
    split
    · refine List.forall_mem_append.2 ⟨List.forall_mem_append.2 ⟨?_, hpending _ _ _ _⟩, hpending _ _ _ _⟩
      split_ifs <;> simp [Act.plain]
    · simp only [List.forall_mem_cons]
      exact ⟨rfl, rfl, rfl, by simp⟩
    · split_ifs <;> simp [Act.plain]
    · simp
  · simp

/-- The interrupts that are active after an operation, if `l` were before. -/
def active (s : Nvic) (l : List ℕ) : Op → List ℕ
  | .acknowledge => s.gic.currentPending :: l
  | .complete irq => l.erase (fromVector irq)
  | .reset => []
  | _ => l

/-- The NVIC, with the interrupts that were taken and are not completed. -/
def stepActive (p : Nvic × List ℕ) (o : NvicEnv × Op) : Except Fault (Nvic × List ℕ) := do
  let t ← p.1.step o
  .ok (t, p.1.active p.2 o.2)

/-- The operation does not change the priority of one of the interrupts `l`. -/
def Leaves (p : Nvic × List ℕ) (o : NvicEnv × Op) : Prop := ∀ a ∈ p.1.acts o.2, a.leaves p.1.gic p.2 = true

instance (p : Nvic × List ℕ) (o : NvicEnv × Op) : Decidable (Leaves p o) :=
  inferInstanceAs (Decidable (∀ a ∈ _, _))

/-- The operations that change the active interrupts, and the others. -/
theorem plain_acts (s : Nvic) (o : Op) : o = .acknowledge ∨ (∃ irq, o = .complete irq) ∨ o = .reset ∨
    (∀ a ∈ s.acts o, a.plain = true) ∧ ∀ l, s.active l o = l := by
  cases o with
  | acknowledge => exact .inl rfl
  | complete irq => exact .inr (.inl ⟨irq, rfl⟩)
  | reset => exact .inr (.inr (.inl rfl))
  | setIrq line level =>
    refine .inr (.inr (.inr ⟨?_, fun _ => rfl⟩))
    simp only [acts, List.forall_mem_singleton, Act.plain, decide_eq_true_iff]
    exact Nat.add_lt_add_right line.isLt 32
  | setPending irq | read offset size =>
    refine .inr (.inr (.inr ⟨?_, fun _ => rfl⟩))
    simp [acts, Act.plain]
  | write offset value size =>
    refine .inr (.inr (.inr ⟨?_, fun _ => rfl⟩))
    simp only [acts]
    split
    · exact plain_writeActs _ _ _
    · exact plain_sysregActs _ _ _
  | tick =>
    refine .inr (.inr (.inr ⟨?_, fun _ => rfl⟩))
    simp only [acts]
    split <;> simp [Act.plain]

theorem stack_step {o : NvicEnv × Op} (h : s.gic.Stack l) (hcoh : s.gic.Coherent) (hleaves : Leaves (s, l) o)
    (ht : step s o = .ok t) : t.gic.Stack (s.active l o.2) := by
  have hrun := step_acts ht
  obtain ⟨env, o⟩ := o
  rcases plain_acts s o with rfl | ⟨irq, rfl⟩ | rfl | ⟨hplain, hsame⟩
  · obtain ⟨g, hg, hrun⟩ := run_cons_ok.1 hrun
    cases hrun
    have hcur : s.gic.currentPending < Gic.numIrq := by
      rcases hcoh with ⟨hnone, -⟩ | ⟨hlt, -⟩
      · exact absurd hnone (act_acknowledge hg).1
      · exact hlt
    exact h.acknowledge hcur hg
  · obtain ⟨g, hg, hrun⟩ := run_cons_ok.1 hrun
    cases hrun
    obtain ⟨g, hg', hstack⟩ := h.complete (fromVector irq)
    cases hg.symm.trans hg'
    exact hstack
  · cases ht
    exact ⟨.nil, fun _ hirq => absurd hirq List.not_mem_nil, .nil, rfl⟩
  · rw [hsame]
    exact h.same (same_run (fun a ha => ⟨hplain a ha, hleaves a ha⟩) hrun)

theorem read_error {env : NvicEnv} {offset : ℕ} {size : AccessSize} {e : Fault}
    (h : s.read env offset size = .error e) : e = .divByZero := by
  have hcurrent : s.systick.current env = .error e → e = .divByZero := by
    unfold SystickTimer.current
    split_ifs <;> simp [eq_comm]
  unfold read sysregRead at h
  split_ifs at h
  · unfold readl at h
    split at h
    case h_4 =>
      cases hval : s.systick.current env with
      | ok val => rw [hval] at h; cases h
      | error e' =>
        rw [hval] at h
        cases h
        exact hcurrent hval
    all_goals cases h

/-- What stops the NVIC: an acknowledgement without a request, or a read of the counter of SysTick
    while its clock stands still. -/
theorem step_error {o : NvicEnv × Op} {e : Fault} (h : s.gic.Stack l) (he : step s o = .error e) :
    e = noVector ∨ e = .divByZero := by
  obtain ⟨env, o⟩ := o
  cases o with
  | acknowledge =>
    have he' : s.acknowledgeIrq.map Prod.snd = .error e := he
    simp only [acknowledgeIrq] at he'
    split_ifs at he'
    · cases he'
      exact .inl rfl
    · cases he'
  | complete irq =>
    obtain ⟨g, hg, -⟩ := h.complete (fromVector irq)
    have he' : s.completeIrq irq = .error e := he
    rw [completeIrq, hg] at he'
    cases he'
  | read offset size =>
    have he' : (s.read env offset size).map Prod.snd = .error e := he
    cases hr : s.read env offset size with
    | ok r => rw [hr] at he'; cases he'
    | error e' =>
      rw [hr] at he'
      cases he'
      exact .inr (read_error hr)
  | setIrq line level | setPending irq | write offset value size | tick | reset => cases he

/-- The bit `RETTOBASE` of the Interrupt Control State. -/
theorem icsr_rettobase (h : s.gic.Stack l) : s.icsr.getLsbD 11 = decide (l.length ≤ 1) := by
  have hflag : ∀ n c, (flag n c).getLsbD 11 = (c && decide (n = 11)) := by
    intro n c
    refine (Word.getLsbD_flag c n 11).trans ?_
    grind
  have hvector : ∀ irq < Gic.numIrq, (BitVec.ofNat 32 (toVector irq)).getLsbD 11 = false := by
    decide
  cases l with
  | nil =>
    have hnone : s.gic.runningIrq = NONE := link_eq_none.1 (Linked.nil_iff.1 h.linked)
    simp [icsr, hflag, hnone]
  | cons r l =>
    obtain ⟨hr, hrest⟩ := Linked.cons_iff.1 h.linked
    obtain ⟨hsome, rfl⟩ := link_eq_some.1 hr
    have hv := hvector _ (h.lt _ List.mem_cons_self)
    cases l with
    | nil =>
      have hlast : s.gic.lastActive s.gic.runningIrq = NONE := link_eq_none.1 (Linked.nil_iff.1 hrest)
      simp [icsr, hflag, hlast]
    | cons b l =>
      obtain ⟨hlast, -⟩ := link_eq_some.1 (Linked.cons_iff.1 hrest).1
      unfold icsr
      simp only [BitVec.getLsbD_or, hflag, hsome, hlast, if_false, hv]
      split <;> simp

/-- No interrupt is active at reset. -/
theorem start_stack : start.gic.Stack [] := ⟨.nil, fun _ hirq => absurd hirq List.not_mem_nil, .nil, rfl⟩

end Nvic

open Nvic

/-- **The list of active interrupts is the stack of the interrupts taken and not completed**, as long
    as no write changes the priority of one of them.  `RETTOBASE` says whether there is more than one. -/
theorem active_stack {l : List (NvicEnv × Nvic.Op)}
    (hleaves : ∀ p o, Takes stepActive (Nvic.start, []) l p o → Leaves p o) :
    (∀ s a, run stepActive (Nvic.start, []) l = .ok (s, a) →
        s.gic.Stack a ∧ s.icsr.getLsbD 11 = decide (a.length ≤ 1)) ∧
      ∀ e, run stepActive (Nvic.start, []) l = .error e → e = Gic.noVector ∨ e = .divByZero := by
  have hinv : Post (fun p : Nvic × List ℕ => p.1.gic.On ∧ p.1.gic.Coherent ∧ p.1.gic.Stack p.2)
      (fun e => e = Gic.noVector ∨ e = .divByZero) (run stepActive (Nvic.start, []) l) := by
    refine Post.run ?_ ⟨start_on, .inl ⟨rfl, rfl⟩, start_stack⟩ hleaves
    rintro ⟨s, a⟩ o ⟨hon, hcoh, hstack⟩ ho
    cases ht : s.step o with
    | error e =>
      rw [stepActive, ht]
      exact step_error hstack ht
    | ok t =>
      rw [stepActive, ht]
      exact ⟨On.step hon ht, coherent_step hon hcoh ht, stack_step hstack hcoh ho ht⟩
  refine ⟨fun s a hs => ?_, fun e he => ?_⟩
  · rw [hs] at hinv
    obtain ⟨-, -, hstack⟩ := hinv
    exact ⟨hstack, icsr_rettobase hstack⟩
  · rw [he] at hinv
    exact hinv

/-- `TIM2` is taken and, with a lesser priority value, `USART1`, and then `EXTI0`; `USART1` is completed
    first. -/
def nested : List (NvicEnv × Nvic.Op) :=
  [.write 0x104 0x20 .word, .write 0x100 0x10000040 .word, .write 0x41c 0x20 .byte, .write 0x425 0x10 .byte,
    .setIrq TIM2_IRQn true, .acknowledge, .setIrq STM32_UART1_IRQ true, .acknowledge, .setIrq STM32_EXTI0_IRQ true, .acknowledge,
    .complete 53].map (⟨0, .init⟩, ·)

theorem active_stack_nested : ∃ s, run stepActive (Nvic.start, []) nested = .ok (s, [38, 60]) ∧
    s.gic.Stack [38, 60] ∧ s.icsr.getLsbD 11 = false := by
  have hmeets : Meets stepActive Leaves (Nvic.start, []) nested := by decide +kernel
  have hrun : ∃ p, run stepActive (Nvic.start, []) nested = .ok p ∧ p.2 = [38, 60] := by
    rw [← post_ok]
    decide +kernel
  obtain ⟨⟨s, a⟩, hs, rfl⟩ := hrun
  exact ⟨s, hs, (active_stack hmeets.takes).1 s _ hs⟩

end Bluepill
