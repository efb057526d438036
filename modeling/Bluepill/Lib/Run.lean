/-
  Runs of a machine whose operations may fail.

  A machine is a step function `step : σ → ο → Except ε σ`.  A run performs a
  list of operations in order and stops at the first failure.

  * `run_inv`: a property kept by every step holds at the end of every run;
  * `Visits` and `Takes` are the states and the steps of a run, and `trace` the
    events of its steps;
  * `Post` says what holds of the result of a computation, and what of its
    failure; `Post.run` is the rule for runs; on given inputs it can be evaluated,
    and so can a condition on the steps of a run (`Meets`);
  * `visits_iff_takes`: if, from a good state, a step leads to a good state
    exactly when it meets the condition `C`, then all states of a run are good
    exactly when all its steps meet `C`; `trace_iff_takes` is the same for a
    property of the state and of the events so far, and `history_iff_takes` for
    one of the state and of the operations so far;
  * `run_ne_error_iff`: the same for the runs that do not stop with a given error.
-/
import Mathlib.Data.List.Induction
import Mathlib.Logic.Basic
import Mathlib.Logic.Function.Basic
import Mathlib.Tactic.Common

namespace Machine

universe u v w
variable {σ : Type u} {ο : Type v} {ε : Type w}

/-! ## Sequencing -/

theorem bind_eq_ok {α β : Type u} {x : Except ε α} {f : α → Except ε β} {b : β} :
    (x >>= f) = .ok b ↔ ∃ a, x = .ok a ∧ f a = .ok b := by
  cases x <;> simp [bind, Except.bind]

@[simp] theorem ok_bind {α β : Type u} (a : α) (f : α → Except ε β) :
    ((Except.ok a : Except ε α) >>= f) = f a := rfl

@[simp] theorem error_bind {α β : Type u} (e : ε) (f : α → Except ε β) :
    ((Except.error e : Except ε α) >>= f) = .error e := rfl

/-- A loop over a body that succeeds more often, with the same results. -/
theorem foldlM_ok_mono {α : Type v} {f g : σ → α → Except ε σ}
    (hfg : ∀ s a t, f s a = .ok t → g s a = .ok t) {l : List α} :
    ∀ {s t : σ}, l.foldlM f s = .ok t → l.foldlM g s = .ok t := by
  induction l with
  | nil => exact fun h => h
  | cons a l ih =>
    intro s t h
    rw [List.foldlM_cons] at h ⊢
    obtain ⟨s', hs', h⟩ := bind_eq_ok.1 h
    exact bind_eq_ok.2 ⟨s', hfg s a s' hs', ih h⟩

/-- A loop that a view `V` of the state follows step by step.  `J` is an invariant
    of the loop, which may speak of the items left. -/
theorem foldlM_sim {α τ : Type*} {f : σ → α → Except ε σ} {g : τ → α → τ} {V : σ → τ}
    {J : σ → List α → Prop}
    (hf : ∀ s a l s', J s (a :: l) → f s a = .ok s' → J s' l ∧ V s' = g (V s) a) {l : List α} :
    ∀ {s t : σ}, J s l → l.foldlM f s = .ok t → J t [] ∧ V t = l.foldl g (V s) := by
  induction l with
  | nil => intro s t hs h; cases h; exact ⟨hs, rfl⟩
  | cons a l ih =>
    intro s t hs h
    rw [List.foldlM_cons] at h
    obtain ⟨s', hs', h⟩ := bind_eq_ok.1 h
    obtain ⟨hJ, hV⟩ := hf s a l s' hs hs'
    rw [List.foldl_cons, ← hV]
    exact ih hJ h

/-- A loop that stores the entries of a list in a table. -/
def store {α β : Type*} [DecidableEq α] (t : α → β) (l : List (α × β)) : α → β :=
  l.foldl (fun t p => Function.update t p.1 p.2) t

theorem store_update {α β : Type*} [DecidableEq α] {l : List (α × β)} {a : α}
    (h : ∀ p ∈ l, p.1 ≠ a) (b : β) : ∀ t : α → β,
    store (Function.update t a b) l = Function.update (store t l) a b := by
  induction l with
  | nil => intro t; rfl
  | cons p l ih =>
    intro t
    have hl := ih fun q hq => h q (List.mem_cons_of_mem p hq)
    show store (Function.update (Function.update t a b) p.1 p.2) l = _
    rw [Function.update_comm (h p List.mem_cons_self).symm, hl]; rfl

/-- Two such loops with different keys commute. -/
theorem store_comm {α β : Type*} [DecidableEq α] {l l' : List (α × β)}
    (h : ∀ p ∈ l, ∀ q ∈ l', p.1 ≠ q.1) : ∀ t : α → β, store (store t l) l' = store (store t l') l := by
  induction l with
  | nil => intro t; rfl
  | cons p l ih =>
    intro t
    have hl := ih fun q hq => h q (List.mem_cons_of_mem p hq)
    have hp := store_update (fun q hq => (h p List.mem_cons_self q hq).symm) p.2 t
    show store (store (Function.update t p.1 p.2) l) l' = store (Function.update (store t l') p.1 p.2) l
    rw [hl, hp]

/-- A loop over `l` that stores the entries that satisfy `c`. -/
theorem foldl_eq_store {α β : Type*} [DecidableEq α] (c : α → Bool) (f : α → β) (l : List α) :
    ∀ t : α → β, l.foldl (fun t a => if c a then Function.update t a (f a) else t) t =
      store t ((l.filter c).map fun a => (a, f a)) := by
  induction l with
  | nil => intro t; rfl
  | cons a l ih =>
    intro t
    rw [List.foldl_cons, ih]
    cases hc : c a <;> simp [hc, store]

/-- A loop that updates the entries `l` of a table that satisfy `c`. -/
theorem foldl_update {α β : Type*} [DecidableEq α] (c : α → Bool) (f : α → β) (n : α) (l : List α) :
    ∀ t : α → β, l.foldl (fun t a => if c a then Function.update t a (f a) else t) t n =
      if n ∈ l ∧ c n = true then f n else t n := by
  induction l with
  | nil => intro t; simp
  | cons a l ih =>
    intro t
    rw [List.foldl_cons, ih]
    by_cases hl : n ∈ l ∧ c n = true
    · rw [if_pos hl, if_pos ⟨List.mem_cons_of_mem a hl.1, hl.2⟩]
    · rw [if_neg hl]
      by_cases ha : n = a
      · subst ha; cases hc : c n <;> simp
      · have hne : ¬ (n ∈ a :: l ∧ c n = true) := fun h =>
          hl ⟨(List.mem_cons.1 h.1).resolve_left ha, h.2⟩
        rw [if_neg hne]
        split
        · exact Function.update_of_ne ha _ _
        · rfl

/-! ## Runs -/

/-- Perform the operations `l` in order, starting from `s`. -/
def run (step : σ → ο → Except ε σ) : σ → List ο → Except ε σ
  | s, [] => .ok s
  | s, o :: l =>
    match step s o with
    | .ok t => run step t l
    | .error e => .error e

/-- `t` is a state of the run of `l` from `s`. -/
def Visits (step : σ → ο → Except ε σ) (s : σ) (l : List ο) (t : σ) : Prop :=
  ∃ l₁ l₂, l = l₁ ++ l₂ ∧ run step s l₁ = .ok t

/-- The run of `l` from `s` performs the operation `o` in the state `t`. -/
def Takes (step : σ → ο → Except ε σ) (s : σ) (l : List ο) (t : σ) (o : ο) : Prop :=
  ∃ l₁ l₂, l = l₁ ++ o :: l₂ ∧ run step s l₁ = .ok t

variable {step : σ → ο → Except ε σ}

@[simp] theorem run_nil (s : σ) : run step s [] = .ok s := rfl

theorem run_cons (s : σ) (o : ο) (l : List ο) :
    run step s (o :: l) = step s o >>= fun t => run step t l := by
  cases h : step s o <;> simp [run, h]

theorem run_cons_ok {s u : σ} {o : ο} {l : List ο} :
    run step s (o :: l) = .ok u ↔ ∃ t, step s o = .ok t ∧ run step t l = .ok u := by
  rw [run_cons]; exact bind_eq_ok

theorem run_append_ok {s u : σ} {l₁ l₂ : List ο} :
    run step s (l₁ ++ l₂) = .ok u ↔ ∃ t, run step s l₁ = .ok t ∧ run step t l₂ = .ok u := by
  induction l₁ generalizing s with
  | nil => simp
  | cons o l ih =>
    simp only [List.cons_append, run_cons_ok, ih]
    constructor
    · rintro ⟨t, ht, t', ht', hu⟩; exact ⟨t', ⟨t, ht, ht'⟩, hu⟩
    · rintro ⟨t', ⟨t, ht, ht'⟩, hu⟩; exact ⟨t, ht, t', ht', hu⟩

theorem run_snoc_ok {s u : σ} {l : List ο} {o : ο} :
    run step s (l ++ [o]) = .ok u ↔ ∃ t, run step s l = .ok t ∧ step t o = .ok u := by
  simp [run_append_ok, run_cons_ok]

/-- A run that depends on a condition. -/
theorem run_ite {c : Prop} [Decidable c] {s t u : σ} {l l' : List ο} (h : c → run step s l = .ok t)
    (h' : ¬ c → run step s l' = .ok u) :
    run step s (if c then l else l') = .ok (if c then t else u) := by
  by_cases hc : c
  · rw [if_pos hc, if_pos hc]
    exact h hc
  · rw [if_neg hc, if_neg hc]
    exact h' hc

/-- A run of operations that do not fail is a loop. -/
theorem run_map_ok {α : Type*} {f : α → ο} {g : σ → α → σ} (h : ∀ s a, step s (f a) = .ok (g s a))
    (l : List α) : ∀ s, run step s (l.map f) = .ok (l.foldl g s) := by
  induction l with
  | nil => intro s; rfl
  | cons a l ih =>
    intro s
    rw [List.map_cons, run_cons_ok]
    exact ⟨g s a, h s a, ih (g s a)⟩

/-- **A property kept by every step holds at the end of every run.** -/
theorem run_inv {I : σ → Prop} (hI : ∀ t o u, I t → step t o = .ok u → I u) {l : List ο} :
    ∀ {s u : σ}, I s → run step s l = .ok u → I u := by
  induction l with
  | nil => intro s u hs hr; cases hr; exact hs
  | cons o l ih =>
    intro s u hs hr
    obtain ⟨t, ht, hu⟩ := run_cons_ok.1 hr
    exact ih (hI s o t hs ht) hu

/-- **Unwinding.**  If what a view shows after a step depends only on what it shows
    before and on the part of the operation that `A` relates, it shows the same at the
    end of two runs of related operations. -/
theorem run_unwinding {τ : Type*} {V : σ → τ} {A : ο → ο → Prop}
    (hA : ∀ s s' o o' t t', V s = V s' → A o o' → step s o = .ok t → step s' o' = .ok t' → V t = V t')
    {l l' : List ο} (hl : List.Forall₂ A l l') :
    ∀ {s s' u u' : σ}, V s = V s' → run step s l = .ok u → run step s' l' = .ok u' → V u = V u' := by
  induction hl with
  | nil =>
    intro s s' u u' hs hr hr'
    cases hr
    cases hr'
    exact hs
  | cons ho _ ih =>
    intro s s' u u' hs hr hr'
    obtain ⟨t, ht, hr⟩ := run_cons_ok.1 hr
    obtain ⟨t', ht', hr'⟩ := run_cons_ok.1 hr'
    exact ih (hA s s' _ _ t t' hs ho ht ht') hr hr'

/-! ## The states and the steps of a run -/

theorem Takes.append {s t : σ} {o : ο} {l : List ο} (h : Takes step s l t o) (l' : List ο) :
    Takes step s (l ++ l') t o := by
  obtain ⟨l₁, l₂, rfl, hr⟩ := h
  exact ⟨l₁, l₂ ++ l', by simp, hr⟩

theorem takes_cons {s u : σ} {o o' : ο} {l : List ο} (h : Takes step s (o :: l) u o') :
    (u = s ∧ o' = o) ∨ ∃ t, step s o = .ok t ∧ Takes step t l u o' := by
  obtain ⟨l₁, l₂, hl, hr⟩ := h
  cases l₁ with
  | nil => cases hr; cases hl; exact Or.inl ⟨rfl, rfl⟩
  | cons a l₁ =>
    simp only [List.cons_append, List.cons.injEq] at hl
    obtain ⟨rfl, rfl⟩ := hl
    obtain ⟨t, ht, hr⟩ := run_cons_ok.1 hr
    exact Or.inr ⟨t, ht, l₁, l₂, rfl, hr⟩

theorem takes_head (s : σ) (o : ο) (l : List ο) : Takes step s (o :: l) s o := ⟨[], l, rfl, rfl⟩

theorem Takes.cons {s t u : σ} {o o' : ο} {l : List ο} (ht : step s o = .ok t)
    (h : Takes step t l u o') : Takes step s (o :: l) u o' := by
  obtain ⟨l₁, l₂, rfl, hr⟩ := h
  exact ⟨o :: l₁, l₂, rfl, run_cons_ok.2 ⟨t, ht, hr⟩⟩

/-! ## Results and failures -/

/-- The computation returns a value with `Q`, or fails with an error with `E`. -/
def Post {α : Type*} (Q : α → Prop) (E : ε → Prop) : Except ε α → Prop
  | .ok a => Q a
  | .error e => E e

instance {α : Type*} {Q : α → Prop} {E : ε → Prop} [DecidablePred Q] [DecidablePred E] :
    (x : Except ε α) → Decidable (Post Q E x)
  | .ok a => inferInstanceAs (Decidable (Q a))
  | .error e => inferInstanceAs (Decidable (E e))

theorem post_ok {α : Type*} {Q : α → Prop} {x : Except ε α} :
    Post Q (fun _ => False) x ↔ ∃ a, x = .ok a ∧ Q a := by
  cases x <;> simp [Post]

theorem post_error {α : Type*} {e : ε} {x : Except ε α} :
    Post (fun _ => False) (· = e) x ↔ x = .error e := by
  cases x <;> simp [Post]

/-- Whatever the failures. -/
theorem Post.of_ok {α : Type*} {Q : α → Prop} {x : Except ε α} (h : ∀ a, x = .ok a → Q a) :
    Post Q (fun _ => True) x := by
  cases x with
  | ok a => exact h a rfl
  | error e => trivial

theorem Post.mono {α : Type*} {Q Q' : α → Prop} {E E' : ε → Prop} {x : Except ε α}
    (h : Post Q E x) (hQ : ∀ a, Q a → Q' a) (hE : ∀ e, E e → E' e) : Post Q' E' x := by
  cases x with
  | ok a => exact hQ a h
  | error e => exact hE e h

theorem Post.bind {α β : Type u} {R : α → Prop} {Q : β → Prop} {E : ε → Prop} {x : Except ε α}
    {f : α → Except ε β} (hx : Post R E x) (hf : ∀ a, x = .ok a → R a → Post Q E (f a)) :
    Post Q E (x >>= f) := by
  cases x with
  | ok a => exact hf a rfl hx
  | error e => exact hx

theorem Post.foldlM {α : Type v} {I : σ → Prop} {E : ε → Prop} {f : σ → α → Except ε σ}
    {l : List α} (hf : ∀ a ∈ l, ∀ s, I s → Post I E (f s a)) :
    ∀ {s : σ}, I s → Post I E (l.foldlM f s) := by
  induction l with
  | nil => intro s hs; exact hs
  | cons a l ih =>
    intro s hs
    rw [List.foldlM_cons]
    refine (hf a List.mem_cons_self s hs).bind fun t _ ht => ?_
    exact ih (fun b hb => hf b (List.mem_cons_of_mem a hb)) ht

/-- **What each step that meets `C` keeps, or fails with, a run of such steps
    keeps or fails with.** -/
theorem Post.run {I : σ → Prop} {E : ε → Prop} {C : σ → ο → Prop}
    (hI : ∀ t o, I t → C t o → Post I E (step t o)) {l : List ο} :
    ∀ {s : σ}, I s → (∀ t o, Takes step s l t o → C t o) → Post I E (Machine.run step s l) := by
  induction l with
  | nil => intro s hs _; exact hs
  | cons o l ih =>
    intro s hs hC
    rw [run_cons]
    refine (hI s o hs (hC s o (takes_head s o l))).bind fun t hst ht => ?_
    exact ih ht fun u o' hu => hC u o' (hu.cons hst)

/-- All steps of the run `l` from `s` meet `C`, as a test. -/
def Meets (step : σ → ο → Except ε σ) (C : σ → ο → Prop) : σ → List ο → Prop
  | _, [] => True
  | s, o :: l => C s o ∧ Post (Meets step C · l) (fun _ => True) (step s o)

theorem Meets.takes {C : σ → ο → Prop} {l : List ο} :
    ∀ {s : σ}, Meets step C s l → ∀ t o, Takes step s l t o → C t o := by
  induction l with
  | nil =>
    rintro s - t o ⟨l₁, l₂, hl, -⟩
    simp at hl
  | cons a l ih =>
    rintro s ⟨hC, hm⟩ t o ht
    rcases takes_cons ht with ⟨rfl, rfl⟩ | ⟨u, hu, ht⟩
    · exact hC
    · rw [hu] at hm
      exact ih hm t o ht

instance Meets.decidable {C : σ → ο → Prop} [∀ s o, Decidable (C s o)] :
    (s : σ) → (l : List ο) → Decidable (Meets step C s l)
  | _, [] => .isTrue trivial
  | s, o :: l =>
    haveI : DecidablePred (Meets step C · l) := fun t => Meets.decidable t l
    inferInstanceAs (Decidable (C s o ∧ Post (Meets step C · l) (fun _ => True) (step s o)))

/-! ## Events -/

/-- The events of a run, where `E s o` are those of the step `o` from `s`. -/
def trace {α : Type*} (step : σ → ο → Except ε σ) (E : σ → ο → List α) : σ → List ο → List α
  | _, [] => []
  | s, o :: l =>
    E s o ++ match step s o with
      | .ok t => trace step E t l
      | .error _ => []

theorem trace_cons {α : Type*} (E : σ → ο → List α) {s t : σ} {o : ο} (h : step s o = .ok t)
    (l : List ο) : trace step E s (o :: l) = E s o ++ trace step E t l := by
  simp [trace, h]

theorem trace_snoc {α : Type*} {E : σ → ο → List α} {o : ο} {l : List ο} :
    ∀ {s t : σ}, run step s l = .ok t →
      trace step E s (l ++ [o]) = trace step E s l ++ E t o := by
  induction l with
  | nil =>
    intro s t hr
    cases hr
    cases h : step s o <;> simp [trace, h]
  | cons a l ih =>
    intro s t hr
    obtain ⟨s', hs', hr⟩ := run_cons_ok.1 hr
    simp [trace, hs', ih hr]

/-- In the events `l` there is an `a` since the last `b`. -/
def Since {α : Type*} (a b : α) (l : List α) : Prop := ∃ l₁ l₂, l = l₁ ++ a :: l₂ ∧ b ∉ l₂

theorem Since.mem {α : Type*} {a b : α} {l : List α} (h : Since a b l) : a ∈ l := by
  obtain ⟨l₁, l₂, rfl, -⟩ := h; simp

theorem since_iff_mem {α : Type*} {a b : α} {l : List α} (h : b ∉ l) : Since a b l ↔ a ∈ l := by
  refine ⟨Since.mem, fun ha => ?_⟩
  obtain ⟨l₁, l₂, rfl⟩ := List.append_of_mem ha
  exact ⟨l₁, l₂, rfl, fun hb => h (by simp [hb])⟩

theorem since_append {α : Type*} {a b : α} {l l' : List α} :
    Since a b (l ++ l') ↔ Since a b l' ∨ (Since a b l ∧ b ∉ l') := by
  constructor
  · rintro ⟨l₁, l₂, hl, hb⟩
    rcases List.append_eq_append_iff.1 hl with ⟨m, rfl, hm⟩ | ⟨m, rfl, hm⟩
    · exact .inl ⟨m, l₂, hm, hb⟩
    · cases m with
      | nil => exact .inl ⟨[], l₂, hm.symm, hb⟩
      | cons a' m =>
        simp only [List.cons_append, List.cons.injEq] at hm
        obtain ⟨rfl, rfl⟩ := hm
        simp only [List.mem_append, not_or] at hb
        exact .inr ⟨⟨l₁, m, rfl, hb.1⟩, hb.2⟩
  · rintro (⟨l₁, l₂, rfl, hb⟩ | ⟨⟨l₁, l₂, rfl, hb⟩, hb'⟩)
    · exact ⟨l ++ l₁, l₂, by simp, hb⟩
    · exact ⟨l₁, l₂ ++ l', by simp, by simp [hb, hb']⟩

/-- Events that do not depend on the state. -/
theorem trace_of_op {α : Type*} {f : ο → List α} {l : List ο} :
    ∀ {s u : σ}, run step s l = .ok u → trace step (fun _ o => f o) s l = l.flatMap f := by
  induction l with
  | nil => intros; rfl
  | cons o l ih =>
    intro s u hr
    obtain ⟨t, ht, hu⟩ := run_cons_ok.1 hr
    simp [trace, ht, ih hu]

/-- A property of the events so far and of the state reached, kept by all steps
    that meet `C`. -/
theorem trace_inv {α : Type*} {E : σ → ο → List α} {P : List α → σ → Prop} {C : σ → ο → Prop}
    (hP : ∀ e t o u, P e t → C t o → step t o = .ok u → P (e ++ E t o) u) {s : σ} (hs : P [] s)
    {l : List ο} : ∀ {u : σ}, (∀ t o, Takes step s l t o → C t o) → run step s l = .ok u →
      P (trace step E s l) u := by
  induction l using List.reverseRecOn with
  | nil => intro u _ hr; cases hr; exact hs
  | append_singleton l o ih =>
    intro u hC hr
    obtain ⟨t, ht, hu⟩ := run_snoc_ok.1 hr
    rw [trace_snoc ht]
    refine hP _ t o u (ih (fun t' o' h' => hC t' o' (h'.append [o])) ht) ?_ hu
    exact hC t o ⟨l, [], rfl, ht⟩

/-- **A property of the events so far and of the state reached holds all along a
    run exactly when all its steps meet `C`.**  `I` is an invariant of all runs. -/
theorem trace_iff_takes {α : Type*} {E : σ → ο → List α} {I : σ → Prop} {P : List α → σ → Prop}
    {C : σ → ο → Prop} (hI : ∀ t o u, I t → step t o = .ok u → I u)
    (hC : ∀ e t o u, I t → P e t → step t o = .ok u → (P (e ++ E t o) u ↔ C t o)) {l : List ο}
    {s u : σ} (hs : I s) (hP : P [] s) (hr : run step s l = .ok u) :
    (∀ l₁ l₂ t, l = l₁ ++ l₂ → run step s l₁ = .ok t → P (trace step E s l₁) t) ↔
      ∀ t o, Takes step s l t o → C t o := by
  constructor
  · rintro hall t o ⟨l₁, l₂, rfl, ht⟩
    obtain ⟨t', ht', hr⟩ := run_append_ok.1 hr
    cases ht.symm.trans ht'
    obtain ⟨t', ht', -⟩ := run_cons_ok.1 hr
    have hsnoc := hall (l₁ ++ [o]) l₂ t' (by simp) (run_snoc_ok.2 ⟨t, ht, ht'⟩)
    rw [trace_snoc ht] at hsnoc
    exact (hC _ t o t' (run_inv hI hs ht) (hall l₁ (o :: l₂) t rfl ht) ht').1 hsnoc
  · rintro hall l₁ l₂ t rfl ht
    refine (trace_inv (P := fun e t => I t ∧ P e t) ?_ ⟨hs, hP⟩ (fun t' o' h' =>
      hall t' o' (h'.append l₂)) ht).2
    rintro e t' o u' ⟨hIt, hPt⟩ hCt hu
    exact ⟨hI t' o u' hIt hu, (hC e t' o u' hIt hPt hu).2 hCt⟩

/-- The operations of a run, as its events. -/
theorem trace_self {s u : σ} {l : List ο} (hr : run step s l = .ok u) :
    trace step (fun _ o => [o]) s l = l := by
  rw [trace_of_op hr]
  exact List.flatMap_singleton' l

/-- A property of the operations so far and of the state reached, kept by all
    steps that meet `C`. -/
theorem history_inv {P : List ο → σ → Prop} {C : σ → ο → Prop}
    (hP : ∀ l t o u, P l t → C t o → step t o = .ok u → P (l ++ [o]) u) {s u : σ} (hs : P [] s)
    {l : List ο} (hC : ∀ t o, Takes step s l t o → C t o) (hr : run step s l = .ok u) : P l u := by
  have hinv := trace_inv (E := fun _ o => [o]) hP hs hC hr
  rwa [trace_self hr] at hinv

/-- **A property of the operations so far and of the state reached holds all along
    a run exactly when all its steps meet `C`.**  `I` is an invariant of all runs. -/
theorem history_iff_takes {I : σ → Prop} {P : List ο → σ → Prop} {C : σ → ο → Prop}
    (hI : ∀ t o u, I t → step t o = .ok u → I u)
    (hC : ∀ l t o u, I t → P l t → step t o = .ok u → (P (l ++ [o]) u ↔ C t o)) {l : List ο}
    {s u : σ} (hs : I s) (hP : P [] s) (hr : run step s l = .ok u) :
    (∀ l₁ l₂ t, l = l₁ ++ l₂ → run step s l₁ = .ok t → P l₁ t) ↔
      ∀ t o, Takes step s l t o → C t o := by
  rw [← trace_iff_takes (E := fun _ o => [o]) hI hC hs hP hr]
  constructor
  · intro h l₁ l₂ t hl ht
    rw [trace_self ht]
    exact h l₁ l₂ t hl ht
  · intro h l₁ l₂ t hl ht
    have hP := h l₁ l₂ t hl ht
    rwa [trace_self ht] at hP

/-- **All states of a run are good exactly when all its steps meet `C`.**  `I`
    is an invariant of all runs; from a good state, a step leads to a good
    state exactly when it meets `C`. -/
theorem visits_iff_takes {I P : σ → Prop} {C : σ → ο → Prop}
    (hI : ∀ t o u, I t → step t o = .ok u → I u)
    (hC : ∀ t o u, I t → P t → step t o = .ok u → (P u ↔ C t o)) {l : List ο} {s u : σ}
    (hs : I s) (hP : P s) (hr : run step s l = .ok u) :
    (∀ t, Visits step s l t → P t) ↔ ∀ t o, Takes step s l t o → C t o := by
  rw [← trace_iff_takes (E := fun _ _ => ([] : List Unit)) (P := fun _ t => P t) hI
    (fun _ t o u => hC t o u) hs hP hr]
  exact ⟨fun h l₁ l₂ t hl hr => h t ⟨l₁, l₂, hl, hr⟩,
    fun h t ⟨l₁, l₂, hl, hr⟩ => h l₁ l₂ t hl hr⟩

/-- A step of a run that does not fail does not fail. -/
theorem Takes.step_ok {s t u : σ} {o : ο} {l : List ο} (ht : Takes step s l t o)
    (hr : run step s l = .ok u) : ∃ v, step t o = .ok v := by
  obtain ⟨l₁, l₂, rfl, hl₁⟩ := ht
  obtain ⟨t', ht', hr⟩ := run_append_ok.1 hr
  cases hl₁.symm.trans ht'
  obtain ⟨v, hv, -⟩ := run_cons_ok.1 hr
  exact ⟨v, hv⟩

/-- **All steps of a run satisfy `Q` exactly when they meet `C`,** if that is so for each
    step from a state with the invariant `I`. -/
theorem steps_iff_takes {I : σ → Prop} {Q : σ → ο → σ → Prop} {C : σ → ο → Prop}
    (hI : ∀ t o u, I t → step t o = .ok u → I u)
    (hC : ∀ t o u, I t → step t o = .ok u → (Q t o u ↔ C t o)) {l : List ο} {s u : σ}
    (hs : I s) (hr : run step s l = .ok u) :
    (∀ t o v, Takes step s l t o → step t o = .ok v → Q t o v) ↔ ∀ t o, Takes step s l t o → C t o := by
  have hinv : ∀ t o, Takes step s l t o → I t := by
    rintro t o ⟨l₁, l₂, -, ht⟩
    exact run_inv hI hs ht
  constructor
  · intro hQ t o ht
    obtain ⟨v, hv⟩ := ht.step_ok hr
    exact (hC t o v (hinv t o ht) hv).1 (hQ t o v ht hv)
  · intro hall t o v ht hv
    exact (hC t o v (hinv t o ht) hv).2 (hall t o ht)

/-- **A run does not stop with the error `e₀` exactly when all its steps meet `C`,** if that is
    so for each step from a state with the invariant `I`. -/
theorem run_ne_error_iff {I : σ → Prop} {C : σ → ο → Prop} {e₀ : ε}
    (hI : ∀ t o u, I t → step t o = .ok u → I u)
    (hC : ∀ t o, I t → (step t o = .error e₀ ↔ ¬ C t o)) {l : List ο} :
    ∀ {s : σ}, I s → (run step s l ≠ .error e₀ ↔ ∀ t o, Takes step s l t o → C t o) := by
  induction l with
  | nil =>
    intro s _
    refine iff_of_true (fun h => nomatch h) ?_
    rintro t o ⟨l₁, l₂, hl, -⟩
    simp at hl
  | cons o l ih =>
    intro s hs
    rw [run_cons]
    have hhead : C s o ∨ step s o = .error e₀ := by
      by_cases hc : C s o
      · exact .inl hc
      · exact .inr ((hC s o hs).2 hc)
    cases h : step s o with
    | ok t =>
      rw [ok_bind, ih (hI s o t hs h)]
      constructor
      · intro hall u o' hu
        rcases takes_cons hu with ⟨rfl, rfl⟩ | ⟨t', ht', hu⟩
        · exact hhead.resolve_right (by rw [h]; exact (nomatch ·))
        · cases h.symm.trans ht'
          exact hall u o' hu
      · intro hall u o' hu
        exact hall u o' (hu.cons h)
    | error e =>
      rw [error_bind]
      constructor
      · intro hne u o' hu
        rcases takes_cons hu with ⟨rfl, rfl⟩ | ⟨t', ht', -⟩
        · exact hhead.resolve_right (by rw [h]; exact hne)
        · cases h.symm.trans ht'
      · intro hall he
        exact (hC s o hs).1 (h.trans he) (hall s o (takes_head s o l))

theorem Takes.mem {s t : σ} {o : ο} {l : List ο} (h : Takes step s l t o) : o ∈ l := by
  obtain ⟨l₁, l₂, rfl, -⟩ := h
  simp

/-- **Leaving out operations.**  If, from related states, the other machine follows each step
    that is kept and stays as it is for each step that is not, it follows a whole run with the
    operations that are kept. -/
theorem run_filter {R : σ → σ → Prop} {C : σ → ο → Prop} {keep : ο → Bool}
    (hkeep : ∀ s t o s', R s t → C s o → keep o = true → step s o = .ok s' →
      ∃ t', step t o = .ok t' ∧ R s' t')
    (hskip : ∀ s t o s', R s t → C s o → keep o = false → step s o = .ok s' → R s' t) {l : List ο} :
    ∀ {s t u : σ}, R s t → (∀ s' o, Takes step s l s' o → C s' o) → run step s l = .ok u →
      ∃ v, run step t (l.filter keep) = .ok v ∧ R u v := by
  induction l with
  | nil =>
    intro s t u hR _ hr
    cases hr
    exact ⟨t, rfl, hR⟩
  | cons o l ih =>
    intro s t u hR hC hr
    obtain ⟨s', hs', hr⟩ := run_cons_ok.1 hr
    have hCo : C s o := hC s o (takes_head s o l)
    have hCl : ∀ s₁ o₁, Takes step s' l s₁ o₁ → C s₁ o₁ := fun s₁ o₁ h₁ => hC s₁ o₁ (h₁.cons hs')
    cases hk : keep o with
    | false =>
      rw [List.filter_cons_of_neg (by simp [hk])]
      exact ih (hskip s t o s' hR hCo hk hs') hCl hr
    | true =>
      obtain ⟨t', ht', hR'⟩ := hkeep s t o s' hR hCo hk hs'
      obtain ⟨v, hv, hRv⟩ := ih hR' hCl hr
      rw [List.filter_cons_of_pos hk]
      exact ⟨v, run_cons_ok.2 ⟨t', ht', hv⟩, hRv⟩

/-- If the operations with `C` succeed, a run performs only such operations exactly when it is
    given only such operations. -/
theorem takes_forall_iff {I : σ → Prop} {C : ο → Prop}
    (hI : ∀ t o, I t → C o → ∃ u, step t o = .ok u ∧ I u) {l : List ο} :
    ∀ {s : σ}, I s → ((∀ t o, Takes step s l t o → C o) ↔ ∀ o ∈ l, C o) := by
  induction l with
  | nil =>
    intro s _
    refine iff_of_true ?_ (by simp)
    rintro t o ⟨l₁, l₂, hl, -⟩
    simp at hl
  | cons o l ih =>
    intro s hs
    refine ⟨fun hall => ?_, fun hall t o' ht => hall o' ht.mem⟩
    have ho : C o := hall s o (takes_head s o l)
    obtain ⟨t, ht, hIt⟩ := hI s o hs ho
    rw [List.forall_mem_cons]
    exact ⟨ho, (ih hIt).1 fun u o' hu => hall u o' (hu.cons ht)⟩

end Machine
