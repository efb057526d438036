/-
  Programs that drive a device.

  A program makes requests to a device and goes on with the answers (`Prog`); it may also repeat
  a request until the answer passes a test, which is how a driver waits for a flag.  Between two
  requests anything may happen at the device that the environment can do: `step` is the machine of
  the two, for a program that is started again whenever it ends.

  `Triple P p R` is a proof outline: an assertion at each point of `p`, from `P` at the start to
  `R` at the end, which the environment keeps; all of them imply `I`, and where one of them holds
  the next request succeeds.  A wait goes on only in states where `B` holds.

  * `Triple.bind`, `Triple.pre`, `Triple.post`: the rules for sequencing and for consequence;
  * `Loops.run`: a loop with an invariant keeps `I` for ever, and does not fail;
  * `Loops.quiet`: left alone, it comes to wait in a state where `B` holds;
  * `Triple.terminates`: a program that never has to wait ends.
-/
import Bluepill.Lib.Run

namespace Program

open Machine

universe u v

/-- A program with requests of type `Q` and answers of type `V`. -/
inductive Prog (Q V α : Type) where
  | ret (a : α)
  | call (q : Q) (k : V → Prog Q V α)
  | wait (q : Q) (test : V → Bool) (k : V → Prog Q V α)

namespace Prog

variable {Q V α β : Type}

def bind : Prog Q V α → (α → Prog Q V β) → Prog Q V β
  | ret a, f => f a
  | call q k, f => call q fun v => (k v).bind f
  | wait q test k, f => wait q test fun v => (k v).bind f

instance : Monad (Prog Q V) where
  pure := ret
  bind := bind

/-- A single request. -/
def request (q : Q) : Prog Q V V := call q ret

/-- A request, repeated until the answer passes the test. -/
def poll (q : Q) (test : V → Bool) : Prog Q V V := wait q test ret

end Prog

open Prog

variable {Q V α β σ ε η : Type} {exec : σ → Q → Except ε (V × σ)} {env : σ → η → Except ε σ}

/-- The next request of a program. -/
def access (exec : σ → Q → Except ε (V × σ)) (s : σ) : Prog Q V α → Except ε (σ × Prog Q V α)
  | ret a => .ok (s, ret a)
  | call q k => do
    let (v, s) ← exec s q
    .ok (s, k v)
  | wait q test k => do
    let (v, s) ← exec s q
    .ok (s, if test v then k v else wait q test k)

section
variable {s t : σ} {q : Q} {v : V} {test : V → Bool} {k : V → Prog Q V α}

theorem access_call (h : exec s q = .ok (v, t)) : access exec s (call q k) = .ok (t, k v) := by
  rw [access, h]
  rfl

theorem access_wait (h : exec s q = .ok (v, t)) (htest : test v = true) :
    access exec s (wait q test k) = .ok (t, k v) := by
  rw [access, h]
  exact congrArg (fun p => Except.ok (t, p)) (if_pos htest)

theorem access_wait_again (h : exec s q = .ok (v, t)) (htest : ¬ test v = true) :
    access exec s (wait q test k) = .ok (t, wait q test k) := by
  rw [access, h]
  exact congrArg (fun p => Except.ok (t, p)) (if_neg htest)

end

/-- The machine of a device and of a program that runs for ever: a step of the environment, or one of the
    program. -/
def step (exec : σ → Q → Except ε (V × σ)) (env : σ → η → Except ε σ) (body : Prog Q V Unit)
    (p : σ × Prog Q V Unit) : Option η → Except ε (σ × Prog Q V Unit)
  | some e => do
    let s ← env p.1 e
    .ok (s, p.2)
  | none =>
    match p.2 with
    | ret _ => .ok (p.1, body)
    | q => access exec p.1 q

/-- What the environment keeps. -/
def Stable (env : σ → η → Except ε σ) (P : σ → Prop) : Prop := ∀ s e, P s → ∃ t, env s e = .ok t ∧ P t

/-- A proof outline. -/
inductive Triple (exec : σ → Q → Except ε (V × σ)) (env : σ → η → Except ε σ) (I B : σ → Prop) (R : α → σ → Prop) :
    (σ → Prop) → Prog Q V α → Prop
  | pre {P P' : σ → Prop} {p : Prog Q V α} (hP : ∀ s, P' s → P s) (h : Triple exec env I B R P p) :
    Triple exec env I B R P' p
  | ret {P : σ → Prop} {a : α} (hP : Stable env P) (hI : ∀ s, P s → I s) (h : ∀ s, P s → R a s) :
    Triple exec env I B R P (ret a)
  | call {P : σ → Prop} {q : Q} {k : V → Prog Q V α} (hP : Stable env P) (hI : ∀ s, P s → I s) (M : V → σ → Prop)
    (h : ∀ s, P s → ∃ v t, exec s q = .ok (v, t) ∧ M v t) (hk : ∀ v, Triple exec env I B R (M v) (k v)) :
    Triple exec env I B R P (call q k)
  | wait {P : σ → Prop} {q : Q} {test : V → Bool} {k : V → Prog Q V α} (hP : Stable env P) (hI : ∀ s, P s → I s)
    (M : V → σ → Prop)
    (h : ∀ s, P s → ∃ v t, exec s q = .ok (v, t) ∧ if test v = true then M v t else P t ∧ B t)
    (hk : ∀ v, Triple exec env I B R (M v) (k v)) :
    Triple exec env I B R P (wait q test k)

/-- The program is at a point of an outline whose assertion holds. -/
def At (exec : σ → Q → Except ε (V × σ)) (env : σ → η → Except ε σ) (I B : σ → Prop) (R : α → σ → Prop) (s : σ)
    (p : Prog Q V α) : Prop :=
  ∃ P, Triple exec env I B R P p ∧ P s

variable {I B : σ → Prop} {P : σ → Prop} {R : α → σ → Prop} {p : Prog Q V α} {s t : σ}

namespace Triple

theorem request {q : Q} {R : V → σ → Prop} (hP : Stable env P) (hI : ∀ s, P s → I s)
    (h : ∀ s, P s → ∃ v t, exec s q = .ok (v, t) ∧ R v t) (hR : ∀ v, Stable env (R v)) (hRI : ∀ v s, R v s → I s) :
    Triple exec env I B R P (request q) :=
  .call hP hI R h fun v => .ret (hR v) (hRI v) fun _ hs => hs

theorem poll {q : Q} {test : V → Bool} {R : V → σ → Prop} (hP : Stable env P) (hI : ∀ s, P s → I s)
    (h : ∀ s, P s → ∃ v t, exec s q = .ok (v, t) ∧ if test v = true then R v t else P t ∧ B t)
    (hR : ∀ v, Stable env (R v)) (hRI : ∀ v s, R v s → I s) : Triple exec env I B R P (poll q test) :=
  .wait hP hI R h fun v => .ret (hR v) (hRI v) fun _ hs => hs

/-- Sequencing. -/
theorem bind {R' : β → σ → Prop} {f : α → Prog Q V β} (h : Triple exec env I B R P p)
    (hf : ∀ a, Triple exec env I B R' (R a) (f a)) : Triple exec env I B R' P (p >>= f) := by
  show Triple exec env I B R' P (p.bind f)
  induction h with
  | pre hP _ ih => exact .pre hP ih
  | ret _ _ h => exact .pre h (hf _)
  | call hP hI M h _ ih => exact .call hP hI M h ih
  | wait hP hI M h _ ih => exact .wait hP hI M h ih

theorem post {R' : α → σ → Prop} (h : Triple exec env I B R P p) (hR : ∀ a s, R a s → R' a s) :
    Triple exec env I B R' P p := by
  induction h with
  | pre hP _ ih => exact .pre hP ih
  | ret hP hI h => exact .ret hP hI fun s hs => hR _ s (h s hs)
  | call hP hI M h _ ih => exact .call hP hI M h ih
  | wait hP hI M h _ ih => exact .wait hP hI M h ih

end Triple

namespace At

theorem inv (h : At exec env I B R s p) : I s := by
  obtain ⟨P, h, hs⟩ := h
  induction h with
  | pre hP _ ih => exact ih (hP s hs)
  | ret _ hI | call _ hI | wait _ hI => exact hI s hs

/-- A step of the environment. -/
theorem interfere (h : At exec env I B R s p) (e : η) : ∃ t, env s e = .ok t ∧ At exec env I B R t p := by
  obtain ⟨P, h, hs⟩ := h
  induction h with
  | pre hP _ ih => exact ih (hP s hs)
  | ret hP hI h =>
    obtain ⟨t, ht, hPt⟩ := hP s e hs
    exact ⟨t, ht, _, .ret hP hI h, hPt⟩
  | call hP hI M h hk =>
    obtain ⟨t, ht, hPt⟩ := hP s e hs
    exact ⟨t, ht, _, .call hP hI M h hk, hPt⟩
  | wait hP hI M h hk =>
    obtain ⟨t, ht, hPt⟩ := hP s e hs
    exact ⟨t, ht, _, .wait hP hI M h hk, hPt⟩

/-- A step of the program. -/
theorem access (h : At exec env I B R s p) : ∃ t p', access exec s p = .ok (t, p') ∧ At exec env I B R t p' := by
  obtain ⟨P, h, hs⟩ := h
  induction h with
  | pre hP _ ih => exact ih (hP s hs)
  | ret hP hI h => exact ⟨s, _, rfl, _, .ret hP hI h, hs⟩
  | call hP hI M h hk =>
    obtain ⟨v, t, ht, hM⟩ := h s hs
    exact ⟨t, _, access_call ht, M v, hk v, hM⟩
  | @wait P q test k hP hI M h hk =>
    obtain ⟨v, t, ht, hM⟩ := h s hs
    by_cases htest : test v = true
    · rw [if_pos htest] at hM
      exact ⟨t, k v, access_wait ht htest, M v, hk v, hM⟩
    · rw [if_neg htest] at hM
      exact ⟨t, .wait q test k, access_wait_again ht htest, P, .wait hP hI M h hk, hM.1⟩

/-- The end of the program. -/
theorem ret {a : α} (h : At exec env I B R s (.ret a)) : R a s := by
  obtain ⟨P, h, hs⟩ := h
  generalize hp : Prog.ret a = p at h
  induction h with
  | pre hP _ ih => exact ih (hP s hs) hp
  | ret _ _ h =>
    cases hp
    exact h s hs
  | call | wait => cases hp

end At

/-! ## Programs that run for ever -/

variable {ι : Type} {next : ι → ι → Prop} {L : ι → σ → Prop} {body : Prog Q V Unit}

/-- The body of the loop leads from `L i` to some `L j` that may come next. -/
def LoopsTo (exec : σ → Q → Except ε (V × σ)) (env : σ → η → Except ε σ) (I B : σ → Prop) (next : ι → ι → Prop)
    (L : ι → σ → Prop) (body : Prog Q V Unit) : Prop :=
  ∀ i, Triple exec env I B (fun _ s => ∃ j, next i j ∧ L j s) (L i) body

/-- The body of the loop runs, from `L i` on. -/
def Loops (exec : σ → Q → Except ε (V × σ)) (env : σ → η → Except ε σ) (I B : σ → Prop) (next : ι → ι → Prop)
    (L : ι → σ → Prop) (c : σ × Prog Q V Unit) : Prop :=
  ∃ i, At exec env I B (fun _ s => ∃ j, next i j ∧ L j s) c.1 c.2

theorem Loops.step {c : σ × Prog Q V Unit} (hbody : LoopsTo exec env I B next L body)
    (h : Loops exec env I B next L c) (o : Option η) :
    ∃ d, step exec env body c o = .ok d ∧ Loops exec env I B next L d := by
  obtain ⟨s, p⟩ := c
  obtain ⟨i, h⟩ := h
  cases o with
  | some e =>
    obtain ⟨t, ht, h⟩ := h.interfere e
    refine ⟨(t, p), ?_, i, h⟩
    rw [Program.step, ht]
    rfl
  | none =>
    cases p with
    | ret a =>
      obtain ⟨j, -, hj⟩ := h.ret
      exact ⟨(s, body), rfl, j, L j, hbody j, hj⟩
    | call q k | wait q test k =>
      obtain ⟨t, p', ht, h⟩ := h.access
      exact ⟨(t, p'), ht, i, h⟩

/-- **A program that has come into its loop keeps `I` for ever.** -/
theorem Loops.run {c : σ × Prog Q V Unit} (hbody : LoopsTo exec env I B next L body)
    (h : Loops exec env I B next L c) (ops : List (Option η)) :
    ∃ d, run (Program.step exec env body) c ops = .ok d ∧ I d.1 ∧ Loops exec env I B next L d := by
  have hinv : Post (Loops exec env I B next L) (fun _ => False) (Machine.run (Program.step exec env body) c ops) := by
    refine Post.run (C := fun _ _ => True) ?_ h fun _ _ _ => trivial
    intro c o hc _
    obtain ⟨d, hd, h⟩ := hc.step hbody o
    rw [hd]
    exact h
  obtain ⟨d, hd, i, h⟩ := post_ok.1 hinv
  exact ⟨d, hd, h.inv, i, h⟩

/-! ## A program left alone -/

/-- `k` steps of the program. -/
def alone (exec : σ → Q → Except ε (V × σ)) (env : σ → η → Except ε σ) (body : Prog Q V Unit) (k : ℕ)
    (c : σ × Prog Q V Unit) : Except ε (σ × Prog Q V Unit) :=
  run (step exec env body) c (List.replicate k none)

theorem alone_succ {c d : σ × Prog Q V Unit} {k : ℕ} : alone exec env body (k + 1) c = .ok d ↔
    ∃ c', step exec env body c none = .ok c' ∧ alone exec env body k c' = .ok d := by
  unfold alone
  rw [List.replicate_succ]
  exact run_cons_ok

theorem alone_add {c d e : σ × Prog Q V Unit} {k l : ℕ} (h : alone exec env body k c = .ok d)
    (h' : alone exec env body l d = .ok e) : alone exec env body (k + l) c = .ok e := by
  unfold alone at *
  rw [← List.replicate_append_replicate]
  exact run_append_ok.2 ⟨d, h, h'⟩

/-- What no request changes. -/
theorem alone_const {γ : Type} {f : σ → γ} (hf : ∀ s q v t, exec s q = .ok (v, t) → f t = f s) {k : ℕ} :
    ∀ {c d : σ × Prog Q V Unit}, alone exec env body k c = .ok d → f d.1 = f c.1 := by
  induction k with
  | zero =>
    intro c d h
    cases h
    rfl
  | succ k ih =>
    rintro ⟨s, p⟩ d h
    obtain ⟨c, hc, h⟩ := alone_succ.1 h
    rw [ih h]
    cases p with
    | ret a =>
      cases hc
      rfl
    | call q k' | wait q test k' =>
      obtain ⟨⟨v, t⟩, ht, hc⟩ := bind_eq_ok.1 hc
      cases hc
      exact hf s q v t ht

/-- The program ends, or waits in a state where `B` holds. -/
theorem At.finishes (body : Prog Q V Unit) {R : Unit → σ → Prop} {p : Prog Q V Unit} (h : At exec env I B R s p) :
    ∃ k t p', alone exec env body k (s, p) = .ok (t, p') ∧ At exec env I B R t p' ∧ ((∃ a, p' = .ret a) ∨ B t) := by
  obtain ⟨P, h, hs⟩ := h
  induction h generalizing s with
  | pre hP _ ih => exact ih (hP s hs)
  | ret hP hI h => exact ⟨0, s, _, rfl, ⟨_, .ret hP hI h, hs⟩, .inl ⟨_, rfl⟩⟩
  | call hP hI M h hk ih =>
    obtain ⟨v, t, ht, hM⟩ := h s hs
    obtain ⟨k, u, p', hu, hat, hor⟩ := ih v hM
    exact ⟨k + 1, u, p', alone_succ.2 ⟨_, access_call ht, hu⟩, hat, hor⟩
  | @wait P q test k hP hI M h hk ih =>
    obtain ⟨v, t, ht, hM⟩ := h s hs
    by_cases htest : test v = true
    · rw [if_pos htest] at hM
      obtain ⟨k, u, p', hu, hat, hor⟩ := ih v hM
      exact ⟨k + 1, u, p', alone_succ.2 ⟨_, access_wait ht htest, hu⟩, hat, hor⟩
    · rw [if_neg htest] at hM
      refine ⟨1, t, .wait q test k, alone_succ.2 ⟨_, access_wait_again ht htest, rfl⟩, ?_, .inr hM.2⟩
      exact ⟨P, .wait hP hI M h hk, hM.1⟩

/-- **A program that ends**: on the way `I` holds, and left alone it ends with `R`. -/
theorem Triple.terminates {R : σ → Prop} {p : Prog Q V Unit} (hR : Stable env R) (hI : ∀ s, R s → I s)
    (h : Triple exec env I (fun _ => False) (fun _ => R) P p) (hs : P s) (ops : List (Option η)) :
    ∃ c, run (Program.step exec env (pure ())) (s, p) ops = .ok c ∧ I c.1 ∧
      ∃ k t, alone exec env (pure ()) k c = .ok (t, pure ()) ∧ R t := by
  have hdone : LoopsTo exec env I (fun _ => False) (fun _ _ : Unit => True) (fun _ => R) (pure ()) :=
    fun _ => .ret hR hI fun s hs => ⟨(), trivial, hs⟩
  have hstart : Loops exec env I (fun _ => False) (fun _ _ : Unit => True) (fun _ => R) (s, p) :=
    ⟨(), P, h.post fun _ _ hs => ⟨(), trivial, hs⟩, hs⟩
  obtain ⟨c, hc, hIc, i, hat⟩ := hstart.run hdone ops
  obtain ⟨k, t, p', hk, hat, hor⟩ := hat.finishes (pure ())
  rcases hor with ⟨a, rfl⟩ | hno
  case inr => exact hno.elim
  obtain ⟨-, -, hRt⟩ := hat.ret
  exact ⟨c, hc, hIc, k, t, hk, hRt⟩

/-- **Left alone, the program comes to wait**, if a quantity that it does not change bounds how often its
    body can run. -/
theorem Loops.quiet (f : σ → ℕ) (rank : ι → ℕ) (hf : ∀ s q v t, exec s q = .ok (v, t) → f t = f s)
    (hnext : ∀ i j, next i j → rank i < rank j) (hL : ∀ i s, L i s → rank i ≤ f s)
    (hbody : LoopsTo exec env I B next L body) {c : σ × Prog Q V Unit} (h : Loops exec env I B next L c) :
    ∃ k d, alone exec env body k c = .ok d ∧ Loops exec env I B next L d ∧ B d.1 := by
  obtain ⟨i, h⟩ := h
  -- by induction on the number of times that the body may still run
  generalize hm : f c.1 - rank i = m
  induction m using Nat.strongRecOn generalizing c i with
  | _ m ih =>
    obtain ⟨k, t, p', hk, hat, hor⟩ := h.finishes body
    rcases hor with ⟨a, rfl⟩ | hB
    · obtain ⟨j, hij, hj⟩ := hat.ret
      have hft : f t = f c.1 := alone_const hf hk
      have hlt := hnext i j hij
      have hle := hL j t hj
      obtain ⟨l, d, hl, hloops, hB⟩ := ih (f t - rank j) (by omega) (c := (t, body)) j ⟨L j, hbody j, hj⟩ rfl
      exact ⟨k + (l + 1), d, alone_add hk (alone_succ.2 ⟨_, rfl, hl⟩), hloops, hB⟩
    · exact ⟨k, (t, p'), hk, ⟨i, hat⟩, hB⟩

end Program
