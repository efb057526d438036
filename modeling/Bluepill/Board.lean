/-
  The RCC with a device that uses one of its clocks.

  When the board is made, the devices register for their clocks (`wire`).  From then
  on an access to the RCC notifies them, and the handler of a device reads the
  frequency its clock has at that moment (`seen`).  A `Board` is the RCC with one of
  these devices, given by how it is made, its handler and its other operations
  (`Client`).

  `rcc_post` is the rule for accesses to the RCC: what the handler makes true of the
  device and of the frequency it reads, whatever that is, is true in the end of the
  device and of the frequency the clock has then.  `run_post` is the rule for runs.
-/
import Bluepill.Rcc.Spec
import Bluepill.Rcc.Updates

namespace Bluepill

open Rcc ClkTree Machine

namespace Stm32Rcc

/-- The RCC as the handler called by the notification `e` finds it. -/
def seen (s : Stm32Rcc) (e : Raise) : Stm32Rcc :=
  { s with clktree := { s.clktree with
      clk := fun c => { s.clktree.clk c with outputFreq := e.freq c } } }

theorem getPeriphFreq_eq {p : Periph} {c : ClkId} (hp : PERIPHCLK p = some c) (s : Stm32Rcc) :
    s.getPeriphFreq p = .ok (s.clktree.getOutputFreq c) := by
  rw [getPeriphFreq, hp]

theorem getPeriphFreq_of {p : Periph} {c : ClkId} {s : Stm32Rcc} {f : BitVec 32}
    (hp : PERIPHCLK p = some c) (hf : s.clktree.getOutputFreq c = f) : s.getPeriphFreq p = .ok f :=
  (s.getPeriphFreq_eq hp).trans (congrArg Except.ok hf)

/-- The RCC as initialized, after the registrations `l`. -/
def wire (oscFreq osc32Freq : BitVec 32) (l : List (Periph × Irq)) : Except Fault Stm32Rcc := do
  let s ← init oscFreq osc32Freq
  l.foldlM (fun s q => s.setPeriphClkIrq q.1 q.2) s

variable {oscFreq osc32Freq : BitVec 32} {p : Periph} {irq : Irq} {s : Stm32Rcc} {c : ClkId}

/-- As initialized, the only user is that of `HCLK`. -/
theorem init_ok (h : init oscFreq osc32Freq = .ok s) : Sync (initGraph oscFreq osc32Freq) s.clktree ∧
    ∀ d j, j ∈ (s.clktree.clk d).user ↔ d = HCLK ∧ j = hclkUpdIrq := by
  obtain ⟨t, ht, hs⟩ := Machine.bind_eq_ok.1 h
  cases hs
  rw [show (initClk oscFreq osc32Freq).length = 40 from rfl] at ht
  obtain ⟨t', ht', hsync⟩ := sync_init oscFreq osc32Freq
  cases ht.symm.trans ht'
  have hHCLK : (Machine.run (ClkTree.call 40) .empty (initClk oscFreq osc32Freq)).toOption.map
      (fun t => (t.clk HCLK).user) = some [hclkUpdIrq] := by cbv
  rw [ht] at hHCLK
  have huser : (t.clk HCLK).user = [hclkUpdIrq] := Option.some.inj hHCLK
  refine ⟨hsync, fun d j => ⟨fun hj => ?_, ?_⟩⟩
  · have hsize : (initGraph oscFreq osc32Freq).size ≤ 40 := by
      rw [hsync.size]; decide
    rcases run_user good_empty agrees_empty (initClk_valid oscFreq osc32Freq) hsize ht hj with hj | hj
    · simp [empty] at hj
    · simpa [initClk, periphClk] using hj
  · rintro ⟨rfl, rfl⟩
    show hclkUpdIrq ∈ (t.clk HCLK).user
    rw [huser]
    exact List.mem_singleton_self _

/-- The users of the clocks after the registrations. -/
theorem registrations {l : List (Periph × Irq)} : ∀ {s s' : Stm32Rcc} {g : Graph},
    Sync g s.clktree → l.foldlM (fun s q => s.setPeriphClkIrq q.1 q.2) s = .ok s' →
    Sync g s'.clktree ∧ ∀ d j, j ∈ (s'.clktree.clk d).user ↔
      j ∈ (s.clktree.clk d).user ∨ ∃ q, (q, j) ∈ l ∧ PERIPHCLK q = some d := by
  induction l with
  | nil => intro s s' g h hs; cases hs; simpa using h
  | cons q l ih =>
    intro s s' g h hs
    rw [List.foldlM_cons] at hs
    obtain ⟨s₁, h₁, hs⟩ := Machine.bind_eq_ok.1 hs
    unfold setPeriphClkIrq at h₁
    split at h₁
    · rename_i c hc
      obtain ⟨t, ht, h₁⟩ := Machine.bind_eq_ok.1 h₁
      cases h₁
      obtain ⟨hsync, huser⟩ := ih (h.adduser (periphClk_gated hc).1 ht) hs
      refine ⟨hsync, fun d j => ?_⟩
      rw [huser d j, adduser_user ht]
      constructor
      · rintro ((hj | ⟨rfl, rfl⟩) | ⟨r, hr, hd⟩)
        · exact .inl hj
        · exact .inr ⟨q.1, List.mem_cons_self, hc⟩
        · exact .inr ⟨r, List.mem_cons_of_mem q hr, hd⟩
      · rintro (hj | ⟨r, hr, hd⟩)
        · exact .inl (.inl hj)
        rcases List.mem_cons.1 hr with rfl | hr
        · exact .inl (.inr ⟨Option.some.inj (hd.symm.trans hc), rfl⟩)
        · exact .inr ⟨r, hr, hd⟩
    · cases h₁

/-- Only peripherals that have a clock can be registered for. -/
theorem registered_clk {l : List (Periph × Irq)} : ∀ {s s' : Stm32Rcc},
    l.foldlM (fun s q => s.setPeriphClkIrq q.1 q.2) s = .ok s' →
    ∀ q ∈ l, ∃ c, PERIPHCLK q.1 = some c := by
  induction l with
  | nil => intro s s' _ q hq; cases hq
  | cons r l ih =>
    intro s s' hs q hq
    rw [List.foldlM_cons] at hs
    obtain ⟨s₁, h₁, hs⟩ := Machine.bind_eq_ok.1 hs
    rcases List.mem_cons.1 hq with rfl | hq
    · unfold setPeriphClkIrq at h₁
      split at h₁
      · rename_i c hc; exact ⟨c, hc⟩
      · cases h₁
    · exact ih hs q hq

/-- A device that has registered for peripheral `p`, and the others under other
    numbers: it is notified of its clock, and of no other. -/
theorem wire_ok {l : List (Periph × Irq)} (h : wire oscFreq osc32Freq l = .ok s)
    (hirq : irq ≠ hclkUpdIrq) (hl : ∀ q, (q, irq) ∈ l ↔ q = p) (hp : PERIPHCLK p = some c) :
    Sync (initGraph oscFreq osc32Freq) s.clktree ∧ s.clktree.Listens irq c := by
  obtain ⟨s₀, hs₀, hs⟩ := Machine.bind_eq_ok.1 h
  obtain ⟨hsync₀, huser₀⟩ := init_ok hs₀
  obtain ⟨hsync, huser⟩ := registrations hsync₀ hs
  refine ⟨hsync, fun d => ?_⟩
  rw [huser d irq]
  constructor
  · rintro (hj | ⟨q, hq, hd⟩)
    · exact absurd ((huser₀ d irq).1 hj).2 hirq
    · rw [(hl q).1 hq, hp] at hd
      exact (Option.some.inj hd).symm
  · rintro rfl
    exact .inr ⟨p, (hl p).2 rfl, hp⟩

/-- Without a device under its number, the handler of the RCC itself is notified of `HCLK`,
    and of no other clock. -/
theorem wire_hclk {l : List (Periph × Irq)} (h : wire oscFreq osc32Freq l = .ok s)
    (hl : ∀ q, (q, hclkUpdIrq) ∉ l) :
    Sync (initGraph oscFreq osc32Freq) s.clktree ∧ s.clktree.Listens hclkUpdIrq HCLK := by
  obtain ⟨s₀, hs₀, hs⟩ := Machine.bind_eq_ok.1 h
  obtain ⟨hsync₀, huser₀⟩ := init_ok hs₀
  obtain ⟨hsync, huser⟩ := registrations hsync₀ hs
  refine ⟨hsync, fun d => ?_⟩
  rw [huser d hclkUpdIrq, huser₀]
  constructor
  · rintro (⟨hd, -⟩ | ⟨q, hq, -⟩)
    · exact hd
    · exact absurd hq (hl q)
  · rintro rfl
    exact .inl ⟨rfl, rfl⟩

end Stm32Rcc

/-- A device that uses a clock: how it is made, the handler of its notification, and
    its other operations.  All of them look at the RCC. -/
structure Client (δ ε ο : Type) where
  start : ε → Stm32Rcc → Except Fault δ
  clkIrq : ε → Stm32Rcc → δ → Except Fault δ
  step : ε → Stm32Rcc → δ → ο → Except Fault δ

/-- The RCC and a device. -/
structure Board (δ : Type) where
  rcc : Stm32Rcc
  dev : δ

namespace Board

variable {δ ε ο : Type}

inductive Op (ε ο : Type) where
  | rcc (env : ε) (o : Stm32Rcc.Access)
  | dev (env : ε) (o : ο)

section
variable (K : Client δ ε ο) (host : Host) (irq : Irq)

/-- The board as it is made, with the registrations `l`. -/
def make (oscFreq osc32Freq : BitVec 32) (l : List (Periph × Irq)) (env : ε) :
    Except Fault (Board δ) := do
  let rcc ← Stm32Rcc.wire oscFreq osc32Freq l
  let dev ← K.start env rcc
  .ok ⟨rcc, dev⟩

/-- A new board: the device has registered as user `irq` for peripheral `p`, the other
    devices under other numbers. -/
def Made (oscFreq osc32Freq : BitVec 32) (p : Periph) (b : Board δ) : Prop :=
  ∃ l env, make K oscFreq osc32Freq l env = .ok b ∧ irq ≠ hclkUpdIrq ∧ ∀ q, (q, irq) ∈ l ↔ q = p

/-- The device, registered as user `irq`, handles the notifications `ev`. -/
def deliver (env : ε) (rcc : Stm32Rcc) (ev : List Raise) (d : δ) : Except Fault δ :=
  (ev.filter (·.irq = irq)).foldlM (fun d e => K.clkIrq env (rcc.seen e) d) d

/-- A part of an access, and the notifications it raises. -/
def stage (env : ε) (b : Board δ) (f : Stm32Rcc → Except Fault Stm32Rcc) :
    Except Fault (Board δ) := do
  let rcc ← f b.rcc
  let dev ← deliver K irq env rcc (rcc.clktree.raised.drop b.rcc.clktree.raised.length) b.dev
  .ok ⟨rcc, dev⟩

def step (b : Board δ) : Op ε ο → Except Fault (Board δ)
  | .rcc env o => (Stm32Rcc.stages host o.1).foldlM (stage K irq env) b
  | .dev env o => do
    let dev ← K.step env b.rcc b.dev o
    .ok { b with dev }

end

/-- The frequency of clock `c`. -/
def freq (b : Board δ) (c : ClkId) : BitVec 32 := b.rcc.clktree.getOutputFreq c

/-- The RCC is in order, and the device registered for clock `c` only. -/
structure Kept (irq : Irq) (c : ClkId) (b : Board δ) : Prop where
  synced : b.rcc.clktree.Synced
  listens : b.rcc.clktree.Listens irq c

variable {K : Client δ ε ο} {host : Host} {irq : Irq} {c : ClkId} {p : Periph} {env : ε}
  {b b' : Board δ} {A : ClkId → Update → Prop} {J T : ClkTree → Prop} {P : BitVec 32 → δ → Prop}
  {E : Fault → Prop}

theorem Made.start {oscFreq osc32Freq : BitVec 32} (h : Made K irq oscFreq osc32Freq p b) :
    ∃ env, K.start env b.rcc = .ok b.dev := by
  obtain ⟨l, env, hb, -, -⟩ := h
  obtain ⟨rcc, -, hb⟩ := Machine.bind_eq_ok.1 hb
  obtain ⟨dev, hdev, hb⟩ := Machine.bind_eq_ok.1 hb
  cases hb
  exact ⟨env, hdev⟩

theorem Made.sync {oscFreq osc32Freq : BitVec 32} (h : Made K irq oscFreq osc32Freq p b)
    (hp : PERIPHCLK p = some c) :
    Sync (Stm32Rcc.initGraph oscFreq osc32Freq) b.rcc.clktree ∧ b.rcc.clktree.Listens irq c := by
  obtain ⟨l, env, hb, hirq, hl⟩ := h
  obtain ⟨rcc, hrcc, hb⟩ := Machine.bind_eq_ok.1 hb
  obtain ⟨dev, -, hb⟩ := Machine.bind_eq_ok.1 hb
  cases hb
  exact Stm32Rcc.wire_ok hrcc hirq hl hp

theorem Made.clk {oscFreq osc32Freq : BitVec 32} (h : Made K irq oscFreq osc32Freq p b) :
    ∃ c, PERIPHCLK p = some c := by
  obtain ⟨l, env, hb, -, hl⟩ := h
  obtain ⟨rcc, hrcc, -⟩ := Machine.bind_eq_ok.1 hb
  obtain ⟨s, -, hs⟩ := Machine.bind_eq_ok.1 hrcc
  exact Stm32Rcc.registered_clk hs (p, irq) ((hl p).2 rfl)

theorem Made.kept {oscFreq osc32Freq : BitVec 32} (h : Made K irq oscFreq osc32Freq p b)
    (hp : PERIPHCLK p = some c) : b.Kept irq c :=
  ⟨⟨_, (h.sync hp).1⟩, (h.sync hp).2⟩

/-- The RCC of the board does what it does without the device. -/
theorem step_rcc {o : Stm32Rcc.Access} (h : step K host irq b (.rcc env o) = .ok b') :
    b.rcc.step host o.1 = .ok b'.rcc := by
  rw [← Stm32Rcc.stages_step]
  have hfold : ∀ (l : List (Stm32Rcc → Except Fault Stm32Rcc)) (b : Board δ),
      l.foldlM (stage K irq env) b = .ok b' → l.foldlM (fun s f => f s) b.rcc = .ok b'.rcc := by
    intro l
    induction l with
    | nil => intro b h; cases h; rfl
    | cons f l ih =>
      intro b h
      rw [List.foldlM_cons] at h ⊢
      obtain ⟨b₁, hb₁, h⟩ := Machine.bind_eq_ok.1 h
      obtain ⟨rcc, hrcc, hb₁⟩ := Machine.bind_eq_ok.1 hb₁
      obtain ⟨dev, -, hb₁⟩ := Machine.bind_eq_ok.1 hb₁
      cases hb₁
      exact Machine.bind_eq_ok.2 ⟨rcc, hrcc, ih _ h⟩
  exact hfold _ b h

/-! ## Notifications -/

theorem deliver_post {ev : List Raise} {rcc : Stm32Rcc}
    (hclk : ∀ f' ∈ told irq c ev, ∀ rcc d f, P f d → rcc.clktree.getOutputFreq c = f' →
      Post (P f') E (K.clkIrq env rcc d)) :
    ∀ {d : δ} {f : BitVec 32}, P f d →
      Post (P (latest f (told irq c ev))) E (deliver K irq env rcc ev d) := by
  unfold told deliver at *
  generalize ev.filter (·.irq = irq) = l at *
  induction l with
  | nil => intro d f hP; exact hP
  | cons e l ih =>
    intro d f hP
    rw [List.map_cons, List.forall_mem_cons] at hclk
    rw [List.foldlM_cons]
    exact (hclk.1 (rcc.seen e) d f hP rfl).bind fun d' _ hd' => ih hclk.2 hd'

/-- A part of an access, by what the device is told. -/
theorem stage_post (hA : ∀ c m, A c m → Allowed c m)
    (hJ : ∀ t u, t.Good → J t → Step A t u →
      J u ∧ (u.getOutputFreq c ≠ t.getOutputFreq c → T u))
    (hE : E Stm32Rcc.badSysclk)
    (hclk : ∀ v, T v → ∀ rcc d f, P f d → rcc.clktree.getOutputFreq c = v.getOutputFreq c →
      Post (P (v.getOutputFreq c)) E (K.clkIrq env rcc d))
    {f : Stm32Rcc → Except Fault Stm32Rcc} (hf : Stm32Rcc.Acts A b.rcc.clktree (f b.rcc))
    (hb : b.Kept irq c) (hJb : J b.rcc.clktree) (hPb : P (b.freq c) b.dev) :
    Post (fun b' => b'.Kept irq c ∧ J b'.rcc.clktree ∧ P (b'.freq c) b'.dev) E
      (stage K irq env b f) := by
  unfold stage
  cases hx : f b.rcc with
  | error e =>
    rw [hx] at hf
    cases (show e = Stm32Rcc.badSysclk from hf)
    exact hE
  | ok rcc =>
    rw [hx] at hf
    obtain ⟨g, hg⟩ := hb.synced
    obtain ⟨-, hl, hJ', fs, htell, hfs⟩ := Steps.tells hJ hg.good hb.listens hJb hf
    obtain ⟨ev, hev, rfl⟩ := htell.raised
    have hdrop : rcc.clktree.raised.drop b.rcc.clktree.raised.length = ev := by
      rw [hev, List.drop_left]
    rw [Machine.ok_bind, hdrop]
    have hd : Post (P (latest (b.freq c) (told irq c ev))) E (deliver K irq env rcc ev b.dev) := by
      refine deliver_post (fun f' hf' => ?_) hPb
      obtain ⟨v, hv, rfl⟩ := hfs f' hf'
      exact hclk v hv
    rw [freq, htell.latest] at hd
    refine hd.bind fun d' _ hd' => ?_
    exact ⟨⟨Stm32Rcc.steps_synced hA hb.synced hf, hl⟩, hJ', hd'⟩

/-- **An access to the RCC.**  If the handler, reading any frequency that the clock
    can get in a tree with `T`, makes the device right for it (`P`), then an access leads
    from a device that is right for the frequency of its clock to one that is. -/
theorem rcc_post (hA : ∀ c m, A c m → Allowed c m)
    (hJ : ∀ t u, t.Good → J t → Step A t u →
      J u ∧ (u.getOutputFreq c ≠ t.getOutputFreq c → T u))
    (hE : E Stm32Rcc.badSysclk)
    (hclk : ∀ v, T v → ∀ rcc d f, P f d → rcc.clktree.getOutputFreq c = v.getOutputFreq c →
      Post (P (v.getOutputFreq c)) E (K.clkIrq env rcc d))
    {o : Stm32Rcc.Access} (hu : ∀ m ∈ Stm32Rcc.updates host o.1, A m.1 m.2)
    (hb : b.Kept irq c) (hJb : J b.rcc.clktree) (hPb : P (b.freq c) b.dev) :
    Post (fun b' => b'.Kept irq c ∧ J b'.rcc.clktree ∧ P (b'.freq c) b'.dev) E
      (step K host irq b (.rcc env o)) := by
  refine Post.foldlM (fun f hf b ⟨hb, hJb, hPb⟩ => ?_) ⟨hb, hJb, hPb⟩
  exact stage_post hA hJ hE hclk (Stm32Rcc.stages_acts hA hb.synced o hu hf) hb hJb hPb

/-- **A run.**  The handler makes the device right, and the operations of the device
    that meet `C` keep it right. -/
theorem run_post {C : Board δ → Op ε ο → Prop}
    (hJ : ∀ t u, t.Good → J t → Step Stm32Rcc.Ranged t u → J u) (hE : E Stm32Rcc.badSysclk)
    (hclk : ∀ env v, J v → ∀ rcc d f, P f d → rcc.clktree.getOutputFreq c = v.getOutputFreq c →
      Post (P (v.getOutputFreq c)) E (K.clkIrq env rcc d))
    (hdev : ∀ b env o, C b (.dev env o) → J b.rcc.clktree → P (b.freq c) b.dev →
      Post (P (b.freq c)) E (K.step env b.rcc b.dev o))
    (hb : b.Kept irq c) (hJb : J b.rcc.clktree) (hPb : P (b.freq c) b.dev) {ops : List (Op ε ο)}
    (hC : ∀ t o, Takes (step K host irq) b ops t o → C t o) :
    Post (fun b' => b'.Kept irq c ∧ J b'.rcc.clktree ∧ P (b'.freq c) b'.dev) E
      (Machine.run (step K host irq) b ops) := by
  refine Post.run (fun b o ⟨hb, hJb, hPb⟩ hCo => ?_) ⟨hb, hJb, hPb⟩ hC
  cases o with
  | rcc env o =>
    have hJJ : ∀ t u, t.Good → J t → Step Stm32Rcc.Ranged t u →
        J u ∧ (u.getOutputFreq c ≠ t.getOutputFreq c → J u) := fun t u ht hJt hs =>
      ⟨hJ t u ht hJt hs, fun _ => hJ t u ht hJt hs⟩
    exact rcc_post (fun _ _ => Stm32Rcc.Ranged.allowed) hJJ hE (hclk env)
      (Stm32Rcc.updates_ranged o) hb hJb hPb
  | dev env o =>
    -- the RCC stays as it is
    exact (hdev b env o hCo hJb hPb).bind fun d _ hd => ⟨⟨hb.synced, hb.listens⟩, hJb, hd⟩

end Board

end Bluepill
