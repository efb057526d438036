/-
  What one propagation does.

  The selected inputs make the clocks a forest (`sel`).  A clock is settled if
  its output is the scaled input, and fed if its input is the output of the
  clock it selects.  `recalcOutputFreq` on a clock `c` whose subtree is settled
  and fed, except that `c` itself may not be settled (`Ready`), terminates,
  settles and feeds the whole subtree and changes nothing outside of it
  (`recalc_spec`).  Every clock of the subtree notifies its users once if its
  output changed in the end, and not at all otherwise (`Notified`): after a
  clock has been visited, the rest of the propagation leaves it alone, since
  its value is determined by that of `c` (`Forest.below_unique`).
-/
import Bluepill.Clktree
import Bluepill.Lib.Forest

namespace Bluepill

open Forest

/-- The output frequency for the input frequency `f`, zero if disabled. -/
def ClkConfig.out (k : ClkConfig) (f : BitVec 32) : BitVec 32 := if k.enabled then k.scale f else 0

/-- The output of the clock is up to date with its input. -/
def Clk.Settled (k : Clk) : Prop := k.outputFreq = k.out k.inputFreq

/-- The clock does not divide by zero. -/
def ClkConfig.Safe (k : ClkConfig) : Prop := k.enabled = true → k.divisor ≠ 0

namespace ClkTree

/-- The clock selected by `d`. -/
def sel (t : ClkTree) (d : ClkId) : Option ClkId := (t.clk d).getInputClk

/-- The input of `d` is up to date with the output of the clock it selects. -/
def Fed (t : ClkTree) (d : ClkId) : Prop :=
  ∀ p, t.sel d = some p → (t.clk d).inputFreq = (t.clk p).outputFreq

/-- Inputs are older clocks, and know their outputs; no clock has a maximum
    frequency. -/
structure Linked (t : ClkTree) : Prop where
  link : ∀ d i, some i ∈ (t.clk d).input → i < d ∧ d < t.size ∧ d ∈ (t.clk i).output
  noMax : ∀ d < t.size, (t.clk d).maxOutputFreq = CLKTREE_NO_MAX_FREQ

/-- The same clocks, up to their frequencies. -/
def SameConfig (t u : ClkTree) : Prop :=
  u.size = t.size ∧ ∀ d, (u.clk d).toClkConfig = (t.clk d).toClkConfig

variable {t u v : ClkTree} {c d k p : ClkId} {ks : List ClkId}

/-! ## Configurations -/

theorem SameConfig.refl (t : ClkTree) : t.SameConfig t := ⟨rfl, fun _ => rfl⟩

theorem SameConfig.trans (h : t.SameConfig u) (h' : u.SameConfig v) : t.SameConfig v :=
  ⟨h'.1.trans h.1, fun d => (h'.2 d).trans (h.2 d)⟩

theorem SameConfig.sel_eq (h : t.SameConfig u) : u.sel = t.sel := by
  funext d; simp only [sel, h.2 d]

theorem SameConfig.linked (h : t.SameConfig u) (hl : t.Linked) : u.Linked where
  link d i hi := by
    rw [h.2 d] at hi
    rw [h.2 i, h.1]; exact hl.link d i hi
  noMax d hd := by rw [h.2 d]; exact hl.noMax d (h.1 ▸ hd)

@[simp] theorem modify_size (t : ClkTree) (c : ClkId) (f : Clk → Clk) :
    (t.modify c f).size = t.size := rfl

@[simp] theorem modify_raised (t : ClkTree) (c : ClkId) (f : Clk → Clk) :
    (t.modify c f).raised = t.raised := rfl

@[simp] theorem modify_warned (t : ClkTree) (c : ClkId) (f : Clk → Clk) :
    (t.modify c f).warned = t.warned := rfl

@[simp] theorem modify_self (t : ClkTree) (c : ClkId) (f : Clk → Clk) :
    (t.modify c f).clk c = f (t.clk c) := by simp [modify]

theorem modify_ne (t : ClkTree) (f : Clk → Clk) (h : d ≠ c) :
    (t.modify c f).clk d = t.clk d := by simp [modify, h]

theorem sameConfig_modify {f : Clk → Clk} (hf : (f (t.clk c)).toClkConfig = (t.clk c).toClkConfig) :
    t.SameConfig (t.modify c f) := by
  refine ⟨rfl, fun d => ?_⟩
  by_cases hd : d = c
  · subst hd; rw [modify_self, hf]
  · rw [modify_ne _ _ hd]

theorem mem_input_of_sel (h : t.sel d = some p) : some p ∈ (t.clk d).input := by
  simp only [sel, ClkConfig.getInputClk, Option.join_eq_some_iff] at h
  exact List.mem_of_getElem? h

theorem Linked.ordered (hl : t.Linked) : Ordered t.sel := fun d p h =>
  (hl.link d p (mem_input_of_sel h)).1

theorem Linked.lt_size (hl : t.Linked) (h : t.sel d = some p) : d < t.size :=
  (hl.link d p (mem_input_of_sel h)).2.1

theorem Linked.mem_output (hl : t.Linked) (h : t.sel d = some p) : d ∈ (t.clk p).output :=
  (hl.link d p (mem_input_of_sel h)).2.2

/-- A settled and fed clock satisfies the flow equation of the forest. -/
theorem flowsAt (hs : (t.clk d).Settled) (hf : t.Fed d) :
    FlowsAt t.sel (fun d => (t.clk d).out) t.getOutputFreq d := fun p hp => by
  rw [getOutputFreq, hs, hf p hp]; rfl

/-! ## Notifications -/

/-- The notifications `ev` raised from `t` to `u`: those of a clock are its
    users, once each, if its output changed, and the frequency a handler reads
    for its clock is the one in `u`. -/
structure Notified (t u : ClkTree) (ev : List Raise) : Prop where
  users : ∀ d, (ev.filter (·.clk = d)).map (·.irq) =
    if (u.clk d).outputFreq = (t.clk d).outputFreq then [] else (t.clk d).user
  seen : ∀ e ∈ ev, e.freq e.clk = (u.clk e.clk).outputFreq

theorem notified_nil (h : ∀ d, (u.clk d).outputFreq = (t.clk d).outputFreq) :
    Notified t u [] := ⟨fun d => by simp [h d], by simp⟩

theorem Notified.changed {ev : List Raise} (h : Notified t u ev) {e : Raise} (he : e ∈ ev) :
    (u.clk e.clk).outputFreq ≠ (t.clk e.clk).outputFreq := by
  intro heq
  have := h.users e.clk
  rw [if_pos heq, List.map_eq_nil_iff, List.filter_eq_nil_iff] at this
  exact this e he (by simp)

/-- Two propagations in a row, if what the first one changed the second one
    leaves alone. -/
theorem Notified.append {ev₁ ev₂ : List Raise} (h₁ : Notified t u ev₁) (h₂ : Notified u v ev₂)
    (huser : ∀ d, (u.clk d).user = (t.clk d).user)
    (hstay : ∀ d, (u.clk d).outputFreq ≠ (t.clk d).outputFreq →
      (v.clk d).outputFreq = (u.clk d).outputFreq) : Notified t v (ev₁ ++ ev₂) := by
  refine ⟨fun d => ?_, fun e he => ?_⟩
  · rw [List.filter_append, List.map_append, h₁.users, h₂.users, huser]
    by_cases h : (u.clk d).outputFreq = (t.clk d).outputFreq
    · rw [if_pos h, h]; rfl
    · rw [if_neg h, if_pos (hstay d h), hstay d h, if_neg h, List.append_nil]
  · rcases List.mem_append.1 he with he | he
    · rw [h₁.seen e he, hstay _ (h₁.changed he)]
    · exact h₂.seen e he

/-- `c` gets the output frequency `f`, and notifies its users. -/
def settle (t : ClkTree) (c : ClkId) (f : BitVec 32) : ClkTree :=
  (t.modify c fun k => { k with outputFreq := f }).notify c f

theorem settle_self (t : ClkTree) (c : ClkId) (f : BitVec 32) :
    (t.settle c f).clk c = { t.clk c with outputFreq := f } :=
  modify_self t c fun k => { k with outputFreq := f }

theorem settle_ne (t : ClkTree) (f : BitVec 32) (h : d ≠ c) : (t.settle c f).clk d = t.clk d :=
  modify_ne t (fun k => { k with outputFreq := f }) h

theorem sameConfig_settle (t : ClkTree) (c : ClkId) (f : BitVec 32) :
    t.SameConfig (t.settle c f) :=
  ⟨rfl, (sameConfig_modify (f := fun k => { k with outputFreq := f }) rfl).2⟩

theorem settle_warned (hmax : (t.clk c).maxOutputFreq = CLKTREE_NO_MAX_FREQ) (f : BitVec 32) :
    (t.settle c f).warned = t.warned := by
  have hle : ¬ CLKTREE_NO_MAX_FREQ < f := by
    rw [BitVec.lt_def, show CLKTREE_NO_MAX_FREQ.toNat = 2 ^ 32 - 1 from rfl]
    have := f.isLt; omega
  simp only [settle, notify, modify_self, hmax, if_neg hle, modify_warned]

/-- `c` notifies its own users. -/
theorem notified_settle {f : BitVec 32} (hne : f ≠ (t.clk c).outputFreq) :
    ∃ ev, (t.settle c f).raised = t.raised ++ ev ∧ Notified t (t.settle c f) ev := by
  have hcc := settle_self t c f
  refine ⟨_, rfl, fun d => ?_, fun e he => ?_⟩
  · by_cases hd : d = c
    · subst hd
      rw [hcc, if_neg hne, List.filter_map, List.map_map, modify_self]
      simp [Function.comp_def]
    · rw [if_pos (by rw [settle_ne t f hd]), List.map_eq_nil_iff, List.filter_eq_nil_iff]
      intro e he
      obtain ⟨irq, -, rfl⟩ := List.mem_map.1 he
      simpa using Ne.symm hd
  · obtain ⟨irq, -, rfl⟩ := List.mem_map.1 he
    rfl

/-! ## Propagation -/

/-- The subtree of `c` is settled and fed, up to the output of `c` itself. -/
structure Ready (t : ClkTree) (c : ClkId) : Prop where
  linked : t.Linked
  safe : ∀ d, Below t.sel c d → (t.clk d).Safe
  settled : ∀ d, Below t.sel c d → d ≠ c → (t.clk d).Settled
  fed : ∀ d, Below t.sel c d → d ≠ c → t.Fed d

/-- What a propagation from `c` leads to. -/
structure Recalculated (t : ClkTree) (c : ClkId) (u : ClkTree) : Prop where
  config : t.SameConfig u
  frame : ∀ d, ¬ Below t.sel c d → u.clk d = t.clk d
  inputFreq : (u.clk c).inputFreq = (t.clk c).inputFreq
  settled : ∀ d, Below t.sel c d → (u.clk d).Settled
  fed : ∀ d, Below t.sel c d → d ≠ c → u.Fed d
  warned : u.warned = t.warned
  raised : ∃ ev, u.raised = t.raised ++ ev ∧ Notified t u ev

/-- The loop over the outputs of `c`, before the outputs `ks`: the children of
    `c` still to be fed are among them. -/
structure Pending (t : ClkTree) (c : ClkId) (ks : List ClkId) : Prop where
  linked : t.Linked
  safe : ∀ d, Below t.sel c d → (t.clk d).Safe
  settled : ∀ d, Below t.sel c d → d ≠ c → (t.clk d).Settled
  fed : ∀ d, Below t.sel c d → d ≠ c → t.sel d ≠ some c → t.Fed d
  children : ∀ d, t.sel d = some c → d ∈ ks ∨ t.Fed d

/-- What the loop over the outputs of `c` leads to. -/
structure Propagated (t : ClkTree) (c : ClkId) (u : ClkTree) : Prop where
  config : t.SameConfig u
  frame : ∀ d, ¬ Below t.sel c d ∨ d = c → u.clk d = t.clk d
  settled : ∀ d, Below t.sel c d → d ≠ c → (u.clk d).Settled
  fed : ∀ d, Below t.sel c d → d ≠ c → u.Fed d
  warned : u.warned = t.warned
  raised : ∃ ev, u.raised = t.raised ++ ev ∧ Notified t u ev

theorem Pending.ready (h : t.Pending c (k :: ks)) (hk : t.sel k = some c) (f : BitVec 32) :
    (t.modify k fun x => { x with inputFreq := f }).Ready k := by
  have hcfg : t.SameConfig (t.modify k fun x => { x with inputFreq := f }) := sameConfig_modify rfl
  have ho := h.linked.ordered
  refine ⟨hcfg.linked h.linked, fun d hd => ?_, fun d hd hdk => ?_, fun d hd hdk p hp => ?_⟩ <;>
    rw [hcfg.sel_eq] at hd
  · rw [hcfg.2 d]; exact h.safe d (hd.child hk)
  · rw [modify_ne _ _ hdk]
    exact h.settled d (hd.child hk) fun e => not_below_child ho hk (e ▸ hd)
  · -- `d` is a proper member of the subtree of `k`: its input is as before
    rw [hcfg.sel_eq] at hp
    have hfed := h.fed d (hd.child hk) (fun e => not_below_child ho hk (e ▸ hd))
      (hd.parent_ne ho hk hdk) p hp
    rw [modify_ne _ _ hdk, hfed]
    by_cases hpk : p = k
    · subst hpk; rw [modify_self]
    · rw [modify_ne _ _ hpk]

/-- One step of the loop: feed the child `k` of `c`, and propagate from it. -/
theorem Recalculated.pending (h : t.Pending c (k :: ks)) (hk : t.sel k = some c)
    (hr : (t.modify k fun x => { x with inputFreq := (t.clk c).outputFreq }).Recalculated k u) :
    u.Pending c ks ∧ t.SameConfig u ∧ u.Fed k ∧
      (∀ d, ¬ Below t.sel c d ∨ d = c → u.clk d = t.clk d) := by
  have hm : t.SameConfig (t.modify k fun x => { x with inputFreq := (t.clk c).outputFreq }) :=
    sameConfig_modify rfl
  have hcfg := hm.trans hr.config
  have ho := h.linked.ordered
  have hframe : ∀ d, ¬ Below t.sel k d → u.clk d = t.clk d := by
    intro d hd
    rw [hr.frame d (by rwa [hm.sel_eq]), modify_ne]
    rintro rfl; exact hd .refl
  have hfedk : u.Fed k := by
    intro p hp
    rw [hcfg.sel_eq, hk] at hp; cases hp
    rw [hr.inputFreq, modify_self, hframe c (not_below_child ho hk)]
  have hfeds : ∀ d, Below t.sel k d → u.Fed d := by
    intro d hd
    by_cases hdk : d = k
    · subst hdk; exact hfedk
    · exact hr.fed d (by rwa [hm.sel_eq]) hdk
  -- outside of the subtree of `k`, neither `d` nor the clock it selects has changed
  have hkeep : ∀ d, ¬ Below t.sel k d → t.Fed d → u.Fed d := by
    intro d hd hf p hp
    rw [hcfg.sel_eq] at hp
    rw [hframe d hd, hframe p fun hb => hd (.step hp hb), hf p hp]
  refine ⟨⟨hcfg.linked h.linked, ?_, ?_, ?_, ?_⟩, hcfg, hfedk, ?_⟩
  · intro d hd
    rw [hcfg.sel_eq] at hd
    rw [hcfg.2 d]; exact h.safe d hd
  · intro d hd hdc
    rw [hcfg.sel_eq] at hd
    by_cases hb : Below t.sel k d
    · exact hr.settled d (by rwa [hm.sel_eq])
    · rw [hframe d hb]; exact h.settled d hd hdc
  · intro d hd hdc hne
    rw [hcfg.sel_eq] at hd hne
    by_cases hb : Below t.sel k d
    · exact hfeds d hb
    · exact hkeep d hb (h.fed d hd hdc hne)
  · intro d hd
    rw [hcfg.sel_eq] at hd
    by_cases hb : Below t.sel k d
    · exact .inr (hfeds d hb)
    · rcases h.children d hd with hmem | hf
      · rcases List.mem_cons.1 hmem with rfl | hmem
        · exact absurd .refl hb
        · exact .inl hmem
      · exact .inr (hkeep d hb hf)
  · rintro d (hd | rfl)
    · exact hframe d fun hb => hd (hb.child hk)
    · exact hframe d (not_below_child ho hk)

/-- A fed and settled subtree is not changed by what happens elsewhere. -/
theorem outputFreq_stable (hcfg : u.SameConfig v) (hk : u.sel k = some c)
    (hc : (v.clk c).outputFreq = (u.clk c).outputFreq)
    (hu : ∀ d, Below u.sel k d → (u.clk d).Settled ∧ u.Fed d)
    (hv : ∀ d, Below u.sel k d → (v.clk d).Settled ∧ v.Fed d) :
    ∀ d, Below u.sel k d → (v.clk d).outputFreq = (u.clk d).outputFreq := by
  have hflow : ∀ d, Below u.sel k d →
      FlowsAt u.sel (fun d => (u.clk d).out) v.getOutputFreq d := by
    intro d hd p hp
    have h := flowsAt (hv d hd).1 (hv d hd).2 p (by rwa [hcfg.sel_eq])
    simp only [hcfg.2 d] at h; exact h
  have hkk : (v.clk k).outputFreq = (u.clk k).outputFreq := by
    have h₁ := hflow k .refl c hk
    have h₂ := flowsAt (hu k .refl).1 (hu k .refl).2 c hk
    simp only [getOutputFreq] at h₁ h₂
    rw [h₁, h₂, hc]
  intro d hd
  change v.getOutputFreq d = u.getOutputFreq d
  exact below_unique hkk (fun d hd _ => hflow d hd)
    (fun d hd _ => flowsAt (hu d hd).1 (hu d hd).2) d hd

/-- The loop of `recalcOutputFreq`, over a recursive call that is right. -/
theorem propagate_spec {fuel : ℕ}
    (ih : ∀ t k, t.Ready k → k < t.size → t.size ≤ k + fuel →
      ∃ u, recalcOutputFreq fuel t k = .ok u ∧ t.Recalculated k u) :
    ∀ (ks : List ClkId) (t : ClkTree), t.Pending c ks → t.size ≤ c + (fuel + 1) →
      ∃ u, ks.foldlM (fun t' k => if (t'.clk k).getInputClk = some c then
          setInputFreqWith (recalcOutputFreq fuel) t' k (t.clk c).outputFreq else .ok t') t = .ok u ∧
        t.Propagated c u := by
  intro ks
  induction ks with
  | nil =>
    intro t h _
    refine ⟨t, rfl, .refl t, fun _ _ => rfl, h.settled, fun d hd hdc => ?_, rfl, [], by simp,
      notified_nil fun _ => rfl⟩
    by_cases hs : t.sel d = some c
    · exact (h.children d hs).resolve_left (by simp)
    · exact h.fed d hd hdc hs
  | cons k ks ihks =>
    intro t h hsize
    rw [List.foldlM_cons]
    by_cases hk : t.sel k = some c
    · have hck := h.linked.ordered k c hk
      have hkt := h.linked.lt_size hk
      obtain ⟨u, hu, hr⟩ := ih _ k (h.ready hk (t.clk c).outputFreq) hkt
        (by simp only [modify_size]; omega)
      obtain ⟨hp, hcfg, hfedk, hframe⟩ := hr.pending h hk
      have hc : (u.clk c).outputFreq = (t.clk c).outputFreq := by rw [hframe c (.inr rfl)]
      obtain ⟨v, hv, hpv⟩ := ihks u hp (hcfg.1 ▸ hsize)
      have hsel := hcfg.sel_eq
      refine ⟨v, ?_, hcfg.trans hpv.config, ?_, ?_, ?_, ?_, ?_⟩
      · rw [hc] at hv
        rw [sel] at hk
        rw [if_pos hk, setInputFreqWith, hu]; exact hv
      · intro d hd
        rw [hpv.frame d (hsel ▸ hd), hframe d hd]
      · exact fun d hd hdc => hpv.settled d (hsel ▸ hd) hdc
      · exact fun d hd hdc => hpv.fed d (hsel ▸ hd) hdc
      · rw [hpv.warned, hr.warned, modify_warned]
      · obtain ⟨ev₁, he₁, hn₁⟩ := hr.raised
        obtain ⟨ev₂, he₂, hn₂⟩ := hpv.raised
        have hn₁' : Notified t u ev₁ := by
          refine ⟨fun d => ?_, hn₁.seen⟩
          rw [hn₁.users d]
          by_cases hdk : d = k
          · subst hdk; simp
          · rw [modify_ne _ _ hdk]
        refine ⟨ev₁ ++ ev₂, by rw [he₂, he₁, modify_raised, List.append_assoc],
          hn₁'.append hn₂ (fun d => by rw [hcfg.2 d]) fun d hd => ?_⟩
        -- what changed is below `k`, and there the outputs are already final
        have hm : t.SameConfig (t.modify k fun x => { x with inputFreq := (t.clk c).outputFreq }) :=
          sameConfig_modify rfl
        have hb : Below u.sel k d := by
          by_contra hb
          rw [hsel, ← hm.sel_eq] at hb
          rw [hr.frame d hb] at hd
          by_cases hdk : d = k
          · subst hdk; exact hb .refl
          · rw [modify_ne _ _ hdk] at hd; exact hd rfl
        have hkc : ∀ d, Below u.sel k d → d ≠ c := by
          rintro d hd rfl
          exact not_below_child h.linked.ordered hk (hsel ▸ hd)
        refine outputFreq_stable hpv.config (hsel ▸ hk) (by rw [hpv.frame c (.inr rfl)])
          (fun d hd => ⟨hr.settled d (by rwa [hm.sel_eq, ← hsel]), ?_⟩)
          (fun d hd => ?_) d hb
        · by_cases hdk : d = k
          · subst hdk; exact hfedk
          · exact hr.fed d (by rwa [hm.sel_eq, ← hsel]) hdk
        · have hdc := hd.child (hsel ▸ hk)
          exact ⟨hpv.settled d hdc (hkc d hd), hpv.fed d hdc (hkc d hd)⟩
    · rw [if_neg (by exact hk)]
      refine ihks t ⟨h.linked, h.safe, h.settled, h.fed, fun d hd => ?_⟩ hsize
      rcases h.children d hd with hmem | hf
      · rcases List.mem_cons.1 hmem with rfl | hmem
        · exact absurd hd hk
        · exact .inl hmem
      · exact .inr hf

theorem newOutputFreq_eq {k : Clk} (h : k.Safe) : k.newOutputFreq = .ok (k.out k.inputFreq) := by
  unfold Clk.newOutputFreq ClkConfig.out
  by_cases he : k.enabled = true
  · rw [if_pos he, if_neg (h he), if_pos he]
  · rw [if_neg he, if_neg he]

theorem recalcOutputFreq_succ (fuel : ℕ) (h : (t.clk c).Safe) :
    recalcOutputFreq (fuel + 1) t c =
      let f := (t.clk c).out (t.clk c).inputFreq
      if f = (t.clk c).outputFreq then .ok t else
        ((t.settle c f).clk c).output.foldlM (fun t' k => if (t'.clk k).getInputClk = some c then
          setInputFreqWith (recalcOutputFreq fuel) t' k ((t.settle c f).clk c).outputFreq
          else .ok t') (t.settle c f) := by
  rw [recalcOutputFreq, newOutputFreq_eq h, Machine.ok_bind]
  rw [← settle]
  simp only [ne_eq, ite_not, settle_self]

/-- Once `c` has its new output, the loop has the children of `c` to feed. -/
theorem Ready.pending (h : t.Ready c) (f : BitVec 32) :
    (t.settle c f).Pending c ((t.settle c f).clk c).output := by
  have hcfg := sameConfig_settle t c f
  have hsel := hcfg.sel_eq
  refine ⟨hcfg.linked h.linked, fun d hd => ?_, fun d hd hdc => ?_, fun d hd hdc hns p hp => ?_,
    fun d hd => .inl ((hcfg.linked h.linked).mem_output hd)⟩
  · rw [hcfg.2 d]; exact h.safe d (hsel ▸ hd)
  · rw [settle_ne _ _ hdc]; exact h.settled d (hsel ▸ hd) hdc
  · have hpc : p ≠ c := fun e => hns (e ▸ hp)
    rw [settle_ne _ _ hdc, settle_ne _ _ hpc]
    exact h.fed d (hsel ▸ hd) hdc p (hsel ▸ hp)

/-- **`clktree_recalc_output_freq` terminates, and settles and feeds the subtree
    of its clock.** -/
theorem recalc_spec : ∀ fuel t c, t.Ready c → c < t.size → t.size ≤ c + fuel →
    ∃ u, recalcOutputFreq fuel t c = .ok u ∧ t.Recalculated c u := by
  intro fuel
  induction fuel with
  | zero => intro t c _ hc hs; exact absurd hs (Nat.not_le_of_lt hc)
  | succ fuel ih =>
    intro t c h hc hs
    rw [recalcOutputFreq_succ fuel (h.safe c .refl)]
    dsimp only
    generalize hf : (t.clk c).out (t.clk c).inputFreq = f
    by_cases hfo : f = (t.clk c).outputFreq
    · rw [if_pos hfo]
      refine ⟨t, rfl, .refl t, fun _ _ => rfl, rfl, fun d hd => ?_, h.fed, rfl, [], by simp,
        notified_nil fun _ => rfl⟩
      by_cases hdc : d = c
      · subst hdc; exact (hf.trans hfo).symm
      · exact h.settled d hd hdc
    · rw [if_neg hfo]
      have hcfg := sameConfig_settle t c f
      have hsel := hcfg.sel_eq
      obtain ⟨u, hu, hp⟩ := propagate_spec ih _ _ (h.pending f) hs
      have huc : u.clk c = { t.clk c with outputFreq := f } := by
        rw [hp.frame c (.inr rfl), settle_self]
      refine ⟨u, hu, hcfg.trans hp.config, fun d hd => ?_, by rw [huc], fun d hd => ?_,
        fun d hd hdc => hp.fed d (hsel ▸ hd) hdc, ?_, ?_⟩
      · rw [hp.frame d (.inl (hsel ▸ hd)), settle_ne]
        rintro rfl; exact hd .refl
      · by_cases hdc : d = c
        · subst hdc; rw [huc]; exact hf.symm
        · exact hp.settled d (hsel ▸ hd) hdc
      · rw [hp.warned, settle_warned (h.linked.noMax c hc)]
      · obtain ⟨ev₁, he₁, hn₁⟩ := notified_settle hfo
        obtain ⟨ev₂, he₂, hn₂⟩ := hp.raised
        refine ⟨ev₁ ++ ev₂, by rw [he₂, he₁, List.append_assoc],
          hn₁.append hn₂ (fun d => by rw [hcfg.2 d]) fun d hd => ?_⟩
        have hdc : d = c := by
          by_contra hdc; rw [settle_ne _ _ hdc] at hd; exact hd rfl
        rw [hp.frame d (.inr hdc)]

end ClkTree

end Bluepill
