/-
  What the user of a clock is told.

  A user reads the frequency of its clock when it is notified, and not otherwise.
  On the way from one clock tree to another, over any number of mutator calls
  (`Steps`), it reads some list of frequencies (`Tells`).  The last of them is the
  frequency the clock has in the end; if there is none, the frequency is what it was.
-/
import Bluepill.Clktree.Spec
import Mathlib.Logic.Relation

namespace Bluepill

open Forest

/-- The last of the frequencies `fs`, and `f` if there is none. -/
def latest (f : BitVec 32) (fs : List (BitVec 32)) : BitVec 32 := fs.foldl (fun _ f' => f') f

theorem latest_append (f : BitVec 32) (fs fs' : List (BitVec 32)) :
    latest f (fs ++ fs') = latest (latest f fs) fs' := List.foldl_append

/-- If all the frequencies are `f'`, so is the last one. -/
theorem latest_eq {f f' : BitVec 32} {fs : List (BitVec 32)} (h : ∀ x ∈ fs, x = f')
    (hnil : fs = [] → f = f') : latest f fs = f' := by
  induction fs generalizing f with
  | nil => exact hnil rfl
  | cons x fs ih =>
    refine ih (fun y hy => h y (List.mem_cons_of_mem x hy)) fun _ => ?_
    exact h x List.mem_cons_self

namespace ClkTree

/-- The frequencies of clock `c` that user `irq` reads, notified by `ev`. -/
def told (irq : Irq) (c : ClkId) (ev : List Raise) : List (BitVec 32) :=
  (ev.filter (·.irq = irq)).map (·.freq c)

theorem told_append (irq : Irq) (c : ClkId) (ev ev' : List Raise) :
    told irq c (ev ++ ev') = told irq c ev ++ told irq c ev' := by
  rw [told, List.filter_append, List.map_append]; rfl

/-- The user `irq` has registered for clock `c`, and for no other clock. -/
def Listens (t : ClkTree) (irq : Irq) (c : ClkId) : Prop := ∀ d, irq ∈ (t.clk d).user ↔ d = c

/-- From `t` to `u` the user `irq` of clock `c` is told `fs`. -/
structure Tells (irq : Irq) (c : ClkId) (t u : ClkTree) (fs : List (BitVec 32)) : Prop where
  raised : ∃ ev, u.raised = t.raised ++ ev ∧ told irq c ev = fs
  latest : latest (t.getOutputFreq c) fs = u.getOutputFreq c

variable {t u v : ClkTree} {c d : ClkId} {irq : Irq} {m : Update} {fs fs' : List (BitVec 32)}
  {ev : List Raise} {A : ClkId → Update → Prop}

theorem Tells.refl (t : ClkTree) : Tells irq c t t [] := ⟨⟨[], by simp, rfl⟩, rfl⟩

theorem Tells.trans (h : Tells irq c t u fs) (h' : Tells irq c u v fs') :
    Tells irq c t v (fs ++ fs') := by
  obtain ⟨ev, hev, hfs⟩ := h.raised
  obtain ⟨ev', hev', hfs'⟩ := h'.raised
  refine ⟨⟨ev ++ ev', by rw [hev', hev, List.append_assoc], by rw [told_append, hfs, hfs']⟩, ?_⟩
  rw [latest_append, h.latest, h'.latest]

/-! ## One call -/

/-- Notifications go to the users of the clock. -/
theorem Notified.mem_user (h : Notified t u ev) {e : Raise} (he : e ∈ ev) :
    e.irq ∈ (t.clk e.clk).user := by
  have hmem : e.irq ∈ (ev.filter (·.clk = e.clk)).map (·.irq) :=
    List.mem_map_of_mem (List.mem_filter.2 ⟨he, by simp⟩)
  rw [h.users, if_neg (h.changed he)] at hmem
  exact hmem

/-- The user of `c` is told the new frequency, if it is new. -/
theorem Notified.told (h : Notified t u ev) (hl : t.Listens irq c) :
    (∀ f ∈ ClkTree.told irq c ev, f = u.getOutputFreq c) ∧
      (ClkTree.told irq c ev = [] ↔ u.getOutputFreq c = t.getOutputFreq c) := by
  have hmem : ∀ e, e ∈ ev.filter (·.irq = irq) → e ∈ ev ∧ e.clk = c := by
    intro e he
    obtain ⟨he, hirq⟩ := List.mem_filter.1 he
    refine ⟨he, (hl e.clk).1 ?_⟩
    rw [← of_decide_eq_true hirq]; exact h.mem_user he
  refine ⟨fun f hf => ?_, ?_⟩
  · obtain ⟨e, he, rfl⟩ := List.mem_map.1 hf
    obtain ⟨he, rfl⟩ := hmem e he
    exact h.seen e he
  · rw [ClkTree.told, List.map_eq_nil_iff]
    constructor
    · intro hnil
      by_contra hne
      have huser : irq ∈ (ev.filter (·.clk = c)).map (·.irq) := by
        rw [h.users, if_neg (show ¬ (u.clk c).outputFreq = (t.clk c).outputFreq from hne)]
        exact (hl c).2 rfl
      obtain ⟨e, he, hirq⟩ := List.mem_map.1 huser
      have he' : e ∈ ev.filter (·.irq = irq) :=
        List.mem_filter.2 ⟨(List.mem_filter.1 he).1, decide_eq_true hirq⟩
      rw [hnil] at he'; cases he'
    · intro heq
      by_contra hne
      obtain ⟨e, he⟩ := List.exists_mem_of_ne_nil _ hne
      obtain ⟨he, rfl⟩ := hmem e he
      exact h.changed he heq

/-- What a mutator call that returns does. -/
theorem update_ok (h : t.Good) (hd : d < t.size) (hu : t.update t.size d m = .ok u) :
    (t.modify d (t.apply m)).Recalculated d u ∧ u.Good := by
  cases hm : fault (t.clk d).toClkConfig m with
  | some x => cases hu.symm.trans (update_fault (h.but d) hd (Nat.le_refl _) hm)
  | none =>
    obtain ⟨u', hu', hr, hg⟩ := update_spec h hd (Nat.le_refl _) hm
    cases hu.symm.trans hu'; exact ⟨hr, hg⟩

theorem update_user (h : t.Good) (hd : d < t.size) (hu : t.update t.size d m = .ok u) (c : ClkId) :
    (u.clk c).user = (t.clk c).user := by
  rw [congrArg ClkConfig.user ((update_ok h hd hu).1.config.2 c)]
  exact modify_field (fun k => k.user) (by cases m <;> rfl) c

/-- **A mutator call tells the user of `c` the new frequency**, once or more
    often, if it is new, and nothing otherwise. -/
theorem update_tells (h : t.Good) (hd : d < t.size) (hl : t.Listens irq c)
    (hu : t.update t.size d m = .ok u) : ∃ fs, Tells irq c t u fs ∧
      (∀ f ∈ fs, f = u.getOutputFreq c) ∧ (fs = [] ↔ u.getOutputFreq c = t.getOutputFreq c) := by
  obtain ⟨ev, hev, hn⟩ := (update_ok h hd hu).1.raised
  obtain ⟨hall, hnil⟩ := hn.of_apply.told hl
  exact ⟨told irq c ev, ⟨⟨ev, hev, rfl⟩, latest_eq hall fun h' => (hnil.1 h').symm⟩, hall, hnil⟩

/-! ## Many calls -/

/-- A mutator call that meets `A`. -/
def Step (A : ClkId → Update → Prop) (t u : ClkTree) : Prop :=
  ∃ d m, d < t.size ∧ A d m ∧ t.update t.size d m = .ok u

/-- Mutator calls that meet `A`. -/
def Steps (A : ClkId → Update → Prop) : ClkTree → ClkTree → Prop := Relation.ReflTransGen (Step A)

theorem Step.good (h : t.Good) (hs : Step A t u) : u.Good := by
  obtain ⟨d, m, hd, -, hu⟩ := hs
  exact (update_ok h hd hu).2

theorem Step.listens (h : t.Good) (hl : t.Listens irq c) (hs : Step A t u) : u.Listens irq c := by
  obtain ⟨d, m, hd, -, hu⟩ := hs
  intro c'
  rw [update_user h hd hu]; exact hl c'

/-- **What the user of `c` is told over many calls**: frequencies that the clock got
    on the way, in trees with `T`. -/
theorem Steps.tells {J T : ClkTree → Prop} (hJ : ∀ t u, t.Good → J t → Step A t u →
      J u ∧ (u.getOutputFreq c ≠ t.getOutputFreq c → T u))
    (h : t.Good) (hl : t.Listens irq c) (ht : J t) (hs : Steps A t u) :
    u.Good ∧ u.Listens irq c ∧ J u ∧ ∃ fs, Tells irq c t u fs ∧
      ∀ f ∈ fs, ∃ v, T v ∧ v.getOutputFreq c = f := by
  induction hs with
  | refl => exact ⟨h, hl, ht, [], Tells.refl t, by simp⟩
  | @tail v u _ hstep ih =>
    obtain ⟨hg, hlv, hJv, fs, htell, hfs⟩ := ih
    obtain ⟨hJu, hTu⟩ := hJ v u hg hJv hstep
    obtain ⟨d, m, hd, hA, hu⟩ := hstep
    obtain ⟨fs', htell', hfs', hnil⟩ := update_tells hg hd hlv hu
    have hstep : Step A v u := ⟨d, m, hd, hA, hu⟩
    refine ⟨hstep.good hg, hstep.listens hg hlv, hJu, fs ++ fs', htell.trans htell', fun f hf => ?_⟩
    rcases List.mem_append.1 hf with hf | hf
    · exact hfs f hf
    · refine ⟨u, hTu fun hsame => ?_, (hfs' f hf).symm⟩
      rw [hnil.2 hsame] at hf
      cases hf

/-! ## Registrations -/

theorem adduser_user {j : Irq} (hu : t.adduser c irq = .ok u) :
    j ∈ (u.clk d).user ↔ j ∈ (t.clk d).user ∨ (d = c ∧ j = irq) := by
  simp only [adduser] at hu
  split at hu <;> cases hu
  by_cases hd : d = c
  · subst hd; simp
  · simp [modify_ne _ _ hd, hd]

/-- Users come from `clktree_adduser` only. -/
theorem call_user {j : Irq} {k : Call} {fuel : ℕ} (h : t.Good) (hk : k.On t.size)
    (hu : t.call fuel k = .ok u) (hj : j ∈ (u.clk d).user) :
    j ∈ (t.clk d).user ∨ k = .adduser d j := by
  replace hu := call_mono hu (Nat.le_max_left fuel (t.size + 1))
  have hf : t.size + 1 ≤ max fuel (t.size + 1) := Nat.le_max_right _ _
  cases k with
  | createSrcClk name f e =>
    obtain ⟨u', hu', hr, -⟩ := createSrcClk_spec h hf name f e
    cases hu.symm.trans hu'
    rw [hr.config.2 d] at hj
    by_cases hd : d = t.size
    · subst hd; rw [modify_self, createGeneric_self] at hj; simp at hj
    · rw [modify_ne _ _ hd, createGeneric_ne _ _ _ _ _ hd] at hj; exact .inl hj
  | createClk name mul div e mx i is =>
    rcases createClk_spec h hf hk name mul div e mx i with
      he | ⟨v, hv, ⟨x, -, he⟩ | ⟨-, u', hu', hr, -⟩⟩
    · cases hu.symm.trans he
    · cases hu.symm.trans he
    cases hu.symm.trans hu'
    rw [hr.config.2 d] at hj
    by_cases hd : d = t.size
    · subst hd
      rw [modify_self, apply, hv.self, createGeneric_self] at hj
      simp at hj
    · obtain ⟨o, ho⟩ := hv.other d hd
      rw [modify_ne _ _ hd, ho, createGeneric_ne _ _ _ _ _ hd] at hj
      exact .inl hj
  | adduser c' user =>
    rcases (adduser_user hu).1 hj with hj | ⟨rfl, rfl⟩
    · exact .inl hj
    · exact .inr rfl
  | update c' m =>
    refine .inl ?_
    cases hm : fault (t.clk c').toClkConfig m with
    | some x => cases hu.symm.trans (update_fault (h.but c') hk (Nat.le_of_succ_le hf) hm)
    | none =>
      obtain ⟨u', hu', hr, -⟩ := update_spec h hk (Nat.le_of_succ_le hf) hm
      cases hu.symm.trans hu'
      rwa [hr.config.2 d, modify_field (fun k => k.user) (by cases m <;> rfl)] at hj

theorem on_of_valid {g : Graph} {k : Call} (h : g.Valid k) : k.On g.size := by
  rcases k with _ | _ | _ | ⟨c, _ | _ | _⟩
  · trivial
  · exact h.1
  · exact h
  · exact h.1
  · exact h
  · exact h.1

theorem run_user {j : Irq} {fuel : ℕ} {l : List Call} : ∀ {g : Graph} {t : ClkTree}, t.Good →
    Agrees g t → g.ValidAll l → (g.applyAll l).size ≤ fuel →
    Machine.run (call fuel) t l = .ok u → j ∈ (u.clk d).user →
    j ∈ (t.clk d).user ∨ .adduser d j ∈ l := by
  induction l with
  | nil => intro g t _ _ _ _ hu hj; cases hu; exact .inl hj
  | cons k l ih =>
    intro g t hg h hv hf hu hj
    obtain ⟨t', ht', hu⟩ := Machine.run_cons_ok.1 hu
    rcases call_agrees hg h hv.1 (Nat.le_trans ((g.apply k).applyAll_size_le l) hf) with
      he | ⟨u', hu', hgu, hau⟩
    · cases ht'.symm.trans he
    cases ht'.symm.trans hu'
    rcases ih hgu hau hv.2 hf hu hj with hj | hj
    · rcases call_user hg (h.size ▸ on_of_valid hv.1) ht' hj with hj | rfl
      · exact .inl hj
      · exact .inr List.mem_cons_self
    · exact .inr (List.mem_cons_of_mem k hj)

end ClkTree

end Bluepill
