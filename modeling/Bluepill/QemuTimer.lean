/-
  The timers of QEMU (`qemu-timer.c`).

  The pending timers of a clock are in a linked list, `active_timers`.  A timer is put in by a
  walk with a pointer to where the next timer is stored, behind those that expire no later; it is
  taken out by another walk, and at the head when it expires.  Times are `int64_t` in the
  source; the only arithmetic on them here is the difference of two that are not negative.

  `timers_ordered`: in every state, and so between any two calls that devices make, the list has
  exactly the pending timers, in the order in which they expire, and of those that expire at the
  same time the one armed first comes first.  A time before the start of the clock counts as `0`,
  and a timer armed for one comes before all others.  In particular the walks end.

  `deadline_notified`: the deadline that the main loop sleeps for is that of the pending timer
  that expires first, and no operation makes it earlier without a notification.
-/
import Mathlib.Data.Fintype.Card
import Bluepill.Lib.Chain
import Bluepill.Qemu

namespace Bluepill

open Machine Chain

/-- A `QEMUTimerList` with its clock; the timers are the elements of `α`, and `head` is
    `active_timers`. -/
structure TimerList (α : Type) extends Links α where
  expireTime : α → ℤ
  enabled : Bool

namespace TimerList

variable {α : Type}

/-- After `timer_init` of all timers. -/
def init : TimerList α := ⟨⟨none, fun _ => none⟩, fun _ => -1, true⟩

/-- `timer_pending`. -/
def timerPending (s : TimerList α) (ts : α) : Bool := 0 ≤ s.expireTime ts

/-- `timer_expired_ns`. -/
def timerExpiredNs (s : TimerList α) (t : Option α) (time : ℤ) : Bool := t.any fun t => s.expireTime t ≤ time

/-- The loop of `timer_mod_ns_locked`: the place for a timer that expires at `time`. -/
def place (s : TimerList α) (time : ℤ) : ℕ → Option α → Except Fault (Option α)
  | 0, _ => .error .outOfFuel
  | fuel + 1, pt => if s.timerExpiredNs (s.get pt) time then s.place time fuel (s.get pt) else .ok pt

/-- `timerlist_deadline_ns`. -/
def deadlineNs (s : TimerList α) (now : ℤ) : ℤ :=
  if !s.enabled then -1
  else s.head.elim (-1) fun t => if s.expireTime t - now ≤ 0 then 0 else s.expireTime t - now

variable [DecidableEq α]

/-- The loop of `timer_del_locked`, from the place `pt` on. -/
def delFrom (s : TimerList α) (ts : α) : ℕ → Option α → Except Fault (TimerList α)
  | 0, _ => .error .outOfFuel
  | fuel + 1, pt =>
    match s.get pt with
    | none => .ok s
    | some t => if t = ts then .ok { s with toLinks := s.set pt (s.next t) } else s.delFrom ts fuel (some t)

/-- An iteration of the loop of `timerlist_run_timers`, up to the callback of the timer. -/
def expireOne (s : TimerList α) (now : ℤ) : Option (α × TimerList α) :=
  s.head.bind fun ts => if s.expireTime ts ≤ now then
    some (ts, { s with
      head := s.next ts
      next := Function.update s.next ts none
      expireTime := Function.update s.expireTime ts (-1) }) else none

variable [Fintype α]

/-- `timer_del_locked`. -/
def timerDelLocked (s : TimerList α) (ts : α) : Except Fault (TimerList α) :=
  delFrom { s with expireTime := Function.update s.expireTime ts (-1) } ts (Fintype.card α + 1) none

/-- `timer_mod_ns_locked`: whether the timer is the first. -/
def timerModNsLocked (s : TimerList α) (ts : α) (time : ℤ) : Except Fault (Bool × TimerList α) := do
  let pt ← s.place time (Fintype.card α + 1) none
  let s := { s with
    expireTime := Function.update s.expireTime ts (max time 0)
    next := Function.update s.next ts (s.get pt) }
  .ok (pt.isNone, { s with toLinks := s.set pt (some ts) })

/-- `timer_mod_ns`: whether the list is notified. -/
def timerModNs (s : TimerList α) (ts : α) (time : ℤ) : Except Fault (Bool × TimerList α) := do
  let s ← s.timerDelLocked ts
  s.timerModNsLocked ts time

/-- `timer_mod_anticipate_ns`. -/
def timerModAnticipateNs (s : TimerList α) (ts : α) (time : ℤ) : Except Fault (Bool × TimerList α) :=
  if s.expireTime ts = -1 ∨ s.expireTime ts > time then do
    let s ← (if s.expireTime ts ≠ -1 then s.timerDelLocked ts else .ok s)
    s.timerModNsLocked ts time
  else .ok (false, s)

end TimerList

/-- The calls that devices make. -/
inductive TimerCall (α : Type) where
  | mod (ts : α) (time : ℤ)
  | modAnticipate (ts : α) (time : ℤ)
  | del (ts : α)

/-- What happens to a list of timers: a call, the expiry of the first timer if it is due, and
    `qemu_clock_enable`. -/
inductive TimerOp (α : Type) where
  | call (c : TimerCall α)
  | expire (now : ℤ)
  | enable (enabled : Bool)

namespace TimerCall

variable {α : Type}

def timer : TimerCall α → α
  | mod ts _ | modAnticipate ts _ | del ts => ts

/-- The time that the timer gets. -/
def time : TimerCall α → ℤ
  | mod _ time | modAnticipate _ time => max time 0
  | del _ => -1

end TimerCall

/-- How often timers were armed, and the rank that each has among those that expire at the same time: the timer
    that is armed gets the greatest, or the least if it is armed for a time before the start of the clock. -/
structure Arms (α : Type) where
  count : ℕ
  rank : α → ℤ

namespace TimerList

variable {α : Type} [DecidableEq α] [Fintype α]

/-- Whether the list is notified, and the state afterwards. -/
def call (s : TimerList α) : TimerCall α → Except Fault (Bool × TimerList α)
  | .mod ts time => s.timerModNs ts time
  | .modAnticipate ts time => s.timerModAnticipateNs ts time
  | .del ts => do
    let s ← s.timerDelLocked ts
    .ok (false, s)

def op (s : TimerList α) : TimerOp α → Except Fault (Bool × TimerList α)
  | .call c => s.call c
  | .expire now => .ok (false, (s.expireOne now).elim s Prod.snd)
  | .enable enabled => .ok (enabled && !s.enabled, { s with enabled })

end TimerList

namespace Arms

variable {α : Type} [DecidableEq α]

def init : Arms α := ⟨0, fun _ => 0⟩

def arm (g : Arms α) (ts : α) (time : ℤ) : Arms α :=
  ⟨g.count + 1, Function.update g.rank ts (if 0 ≤ time then g.count + 1 else -(g.count + 1))⟩

/-- The arms after a call. -/
def call (g : Arms α) (s : TimerList α) : TimerCall α → Arms α
  | .mod ts time => g.arm ts time
  | .modAnticipate ts time => if s.expireTime ts = -1 ∨ s.expireTime ts > time then g.arm ts time else g
  | .del _ => g

def op (g : Arms α) (s : TimerList α) : TimerOp α → Arms α
  | .call c => g.call s c
  | _ => g

theorem arm_rank_self (g : Arms α) (ts : α) (time : ℤ) :
    (g.arm ts time).rank ts = if 0 ≤ time then (g.count + 1 : ℤ) else -(g.count + 1) := Function.update_self _ _ _

theorem arm_rank_of_ne (g : Arms α) {ts x : α} (time : ℤ) (hx : x ≠ ts) : (g.arm ts time).rank x = g.rank x :=
  Function.update_of_ne hx _ _

end Arms

namespace TimerList

variable {α : Type} {s t : TimerList α} {g : Arms α} {q : List α} {ts : α} {time : ℤ}

/-- `a` expires before `b`, or at the same time with a lower rank. -/
def Before (s : TimerList α) (g : Arms α) (a b : α) : Prop :=
  s.expireTime a < s.expireTime b ∨ s.expireTime a = s.expireTime b ∧ g.rank a < g.rank b

theorem Before.le {a b : α} (h : Before s g a b) : s.expireTime a ≤ s.expireTime b := by
  rcases h with h | ⟨h, -⟩ <;> omega

/-- **The list is `q`.** -/
structure Queue (s : TimerList α) (g : Arms α) (q : List α) : Prop where
  holds : s.Holds q
  ordered : q.Pairwise (Before s g)
  pending : ∀ t, t ∈ q ↔ 0 ≤ s.expireTime t
  least : ∀ t, -1 ≤ s.expireTime t
  rank : ∀ t, -g.count ≤ g.rank t ∧ g.rank t ≤ g.count

theorem queue_init : Queue (init : TimerList α) .init [] :=
  ⟨.nil, .nil, fun t => by simp [init], fun _ => le_refl _, fun _ => by simp [Arms.init]⟩

theorem Queue.length_le [Fintype α] (h : Queue s g q) : q.length ≤ Fintype.card α := h.holds.nodup.length_le_card

/-! ## The deadline -/

theorem enabled_of_deadline {now : ℤ} (h : s.deadlineNs now ≠ -1) : s.enabled = true := by
  by_contra hoff
  rw [Bool.not_eq_true] at hoff
  exact h (by rw [deadlineNs, hoff]; rfl)

theorem Queue.head_le {a b : α} (h : Queue s g q) (ha : a ∈ q.head?) (hb : b ∈ q) :
    s.expireTime a ≤ s.expireTime b := by
  obtain ⟨q, rfl⟩ := List.head?_eq_some_iff.1 ha
  rcases List.mem_cons.1 hb with rfl | hb
  · exact le_refl _
  · exact (List.rel_of_pairwise_cons h.ordered hb).le

theorem Queue.deadline_eq_none {now : ℤ} (h : Queue s g q) : s.deadlineNs now = -1 ↔ s.enabled = false ∨ q = [] := by
  unfold deadlineNs
  cases hen : s.enabled with
  | false => simp
  | true =>
    cases q with
    | nil => simp [Linked.nil_iff.1 h.holds]
    | cons a q =>
      simp only [(Linked.cons_iff.1 h.holds).1, Option.elim_some]
      constructor
      · intro hdeadline
        simp only [Bool.not_true, Bool.false_eq_true, if_false] at hdeadline
        split at hdeadline <;> omega
      · simp

theorem Queue.deadline_eq {now : ℤ} (h : Queue s g q) (hne : s.deadlineNs now ≠ -1) :
    ∃ a ∈ q.head?, s.deadlineNs now = max (s.expireTime a - now) 0 := by
  cases q with
  | nil => exact absurd (h.deadline_eq_none.2 (.inr rfl)) hne
  | cons a q =>
    refine ⟨a, rfl, ?_⟩
    unfold deadlineNs
    simp only [(Linked.cons_iff.1 h.holds).1, Option.elim_some, enabled_of_deadline hne, Bool.not_true,
      Bool.false_eq_true, if_false]
    split <;> omega

theorem Queue.deadline_le (now : ℤ) {a : α} (h : Queue s g q) (hen : s.enabled = true) (ha : a ∈ q) :
    s.deadlineNs now ≠ -1 ∧ s.deadlineNs now ≤ max (s.expireTime a - now) 0 := by
  have hne : s.deadlineNs now ≠ -1 := by
    rw [Ne, h.deadline_eq_none, hen]
    rintro (hoff | rfl)
    · cases hoff
    · cases ha
  obtain ⟨b, hb, hdeadline⟩ := h.deadline_eq hne
  have hle := h.head_le hb ha
  exact ⟨hne, by omega⟩

/-- The first timer of the list `q'` was in the list before, with the same time. -/
def OldHead (s t : TimerList α) (q q' : List α) : Prop :=
  (t.enabled = true → s.enabled = true) ∧ ∀ a ∈ q'.head?, a ∈ q ∧ t.expireTime a = s.expireTime a

theorem oldHead_self : OldHead s s q q := ⟨id, fun _ ha => ⟨List.mem_of_mem_head? ha, rfl⟩⟩

/-! ## The walks -/

theorem place_behind (time : ℤ) {l₁ l₂ : List α} {fuel : ℕ} (h : s.Holds (l₁ ++ l₂)) (hfuel : l₂.length < fuel) :
    ∃ l₃ l₄, l₂ = l₃ ++ l₄ ∧ s.place time fuel l₁.getLast? = .ok (l₁ ++ l₃).getLast? ∧
      (∀ t ∈ l₃, s.expireTime t ≤ time) ∧ ∀ t ∈ l₄.head?, time < s.expireTime t := by
  induction l₂ generalizing l₁ fuel with
  | nil =>
    obtain ⟨fuel, rfl⟩ := Nat.exists_eq_succ_of_ne_zero (Nat.ne_of_gt hfuel)
    have hget : s.get l₁.getLast? = none := Linked.nil_iff.1 h.get
    refine ⟨[], [], rfl, ?_, by simp, by simp⟩
    rw [place, hget, List.append_nil]
    exact if_neg (by simp [timerExpiredNs])
  | cons t l₂ ih =>
    obtain ⟨fuel, rfl⟩ := Nat.exists_eq_succ_of_ne_zero (Nat.ne_of_gt (Nat.zero_lt_of_lt hfuel))
    obtain ⟨hget, -⟩ := Linked.cons_iff.1 h.get
    by_cases ht : s.expireTime t ≤ time
    · have h' : s.Holds ((l₁ ++ [t]) ++ l₂) := by simpa using h
      obtain ⟨l₃, l₄, rfl, hplace, hle, hlt⟩ := ih h' (Nat.lt_of_succ_lt_succ hfuel)
      rw [List.getLast?_concat] at hplace
      refine ⟨t :: l₃, l₄, rfl, ?_, List.forall_mem_cons.2 ⟨ht, hle⟩, hlt⟩
      rw [place, hget, if_pos (by simp [timerExpiredNs, ht]), hplace]
      simp
    · refine ⟨[], t :: l₂, rfl, ?_, by simp, by simpa using ht⟩
      rw [place, hget, if_neg (by simp [timerExpiredNs, ht]), List.append_nil]

variable [DecidableEq α]

theorem delFrom_holds (ts : α) {l₁ l₂ : List α} {fuel : ℕ} (h : s.Holds (l₁ ++ l₂)) (hfuel : l₂.length < fuel) :
    ∃ k : Links α, s.delFrom ts fuel l₁.getLast? = .ok { s with toLinks := k } ∧ k.Holds (l₁ ++ l₂.erase ts) := by
  induction l₂ generalizing l₁ fuel with
  | nil =>
    obtain ⟨fuel, rfl⟩ := Nat.exists_eq_succ_of_ne_zero (Nat.ne_of_gt hfuel)
    have hget : s.get l₁.getLast? = none := Linked.nil_iff.1 h.get
    refine ⟨s.toLinks, ?_, h⟩
    rw [delFrom, hget]
  | cons t l₂ ih =>
    obtain ⟨fuel, rfl⟩ := Nat.exists_eq_succ_of_ne_zero (Nat.ne_of_gt (Nat.zero_lt_of_lt hfuel))
    obtain ⟨hget, hrest⟩ := Linked.cons_iff.1 h.get
    by_cases ht : t = ts
    · subst ht
      refine ⟨s.set l₁.getLast? (s.next t), ?_, ?_⟩
      · rw [delFrom, hget]
        exact if_pos rfl
      · rw [List.erase_cons_head]
        refine h.set hrest fun a ha ha' => ?_
        exact List.disjoint_of_nodup_append h.nodup ha (List.mem_cons_of_mem t ha')
    · have h' : s.Holds ((l₁ ++ [t]) ++ l₂) := by simpa using h
      obtain ⟨k, hk, hholds⟩ := ih h' (Nat.lt_of_succ_lt_succ hfuel)
      rw [List.getLast?_concat] at hk
      refine ⟨k, ?_, ?_⟩
      · rw [delFrom, hget]
        exact (if_neg ht).trans hk
      · rw [List.erase_cons_tail (by simpa using ht)]
        simpa using hholds

/-- The list without `ts`. -/
theorem Queue.remove {k : Links α} (h : Queue s g q) (hk : k.Holds (q.erase ts)) :
    Queue { s with toLinks := k, expireTime := Function.update s.expireTime ts (-1) } g (q.erase ts) := by
  have hmem : ∀ x, x ∈ q.erase ts ↔ x ≠ ts ∧ x ∈ q := fun x => h.holds.nodup.mem_erase_iff
  refine ⟨hk, ?_, fun x => ?_, fun x => ?_, h.rank⟩
  · refine (h.ordered.sublist List.erase_sublist).imp_of_mem fun {a b} ha hb hab => ?_
    rw [hmem] at ha hb
    unfold Before
    dsimp only
    rw [Function.update_of_ne ha.1, Function.update_of_ne hb.1]
    exact hab
  · rw [hmem, h.pending]
    by_cases hx : x = ts
    · subst hx
      simp
    · simp [hx]
  · by_cases hx : x = ts
    · subst hx
      simp
    · simpa [hx] using h.least x

/-- **The first timer expires**, if it is due. -/
theorem Queue.expireOne (h : Queue s g q) (now : ℤ) :
    s.expireOne now = none ∧ (∀ t ∈ q, now < s.expireTime t) ∨
    ∃ ts t, ts ∈ q.head? ∧ s.expireTime ts ≤ now ∧ s.expireOne now = some (ts, t) ∧ Queue t g (q.erase ts) ∧
      t.expireTime = Function.update s.expireTime ts (-1) ∧ t.enabled = s.enabled := by
  cases q with
  | nil =>
    have hhead : s.head = none := Linked.nil_iff.1 h.holds
    exact .inl ⟨by rw [TimerList.expireOne, hhead, Option.bind_none], by simp⟩
  | cons ts q =>
    obtain ⟨hhead, hrest⟩ := Linked.cons_iff.1 h.holds
    by_cases hts : s.expireTime ts ≤ now
    · obtain ⟨k, hk⟩ : ∃ k : Links α, k = ⟨s.next ts, Function.update s.next ts none⟩ := ⟨_, rfl⟩
      refine .inr ⟨ts, { s with toLinks := k, expireTime := Function.update s.expireTime ts (-1) }, rfl, hts, ?_,
        h.remove ?_, rfl, rfl⟩
      · rw [TimerList.expireOne, hhead, Option.bind_some, if_pos hts, hk]
      · rw [List.erase_cons_head, hk]
        exact hrest.update (List.nodup_cons.1 h.holds.nodup).1 none
    · refine .inl ⟨?_, fun t ht => ?_⟩
      · rw [TimerList.expireOne, hhead, Option.bind_some, if_neg hts]
      · rcases List.mem_cons.1 ht with rfl | ht
        · exact not_le.1 hts
        · exact (not_le.1 hts).trans_le (List.rel_of_pairwise_cons h.ordered ht).le

theorem oldHead_erase (h : Queue s g q) (hexpire : t.expireTime = Function.update s.expireTime ts (-1))
    (hen : t.enabled = s.enabled) : OldHead s t q (q.erase ts) := by
  refine ⟨fun h => hen ▸ h, fun a ha => ?_⟩
  obtain ⟨hne, hmem⟩ := h.holds.nodup.mem_erase_iff.1 (List.mem_of_mem_head? ha)
  rw [hexpire, Function.update_of_ne hne]
  exact ⟨hmem, rfl⟩

/-- The order of two timers, when neither of them is armed. -/
theorem Before.arm {a b : α} (h : Before s g a b) (ha : a ≠ ts) (hb : b ≠ ts) {time : ℤ}
    (hexpire : t.expireTime = Function.update s.expireTime ts (max time 0)) : Before t (g.arm ts time) a b := by
  rw [Before, hexpire, Function.update_of_ne ha, Function.update_of_ne hb, g.arm_rank_of_ne time ha,
    g.arm_rank_of_ne time hb]
  exact h

/-- A timer that expires later is behind the one that is armed. -/
theorem Queue.before_of_lt (h : Queue s g q) {b : α} {time : ℤ} (hb : b ∈ q) (hne : b ≠ ts)
    (hlater : time < s.expireTime b) (hexpire : t.expireTime = Function.update s.expireTime ts (max time 0)) :
    Before t (g.arm ts time) ts b := by
  have hpending := (h.pending b).1 hb
  have hbound := h.rank b
  rw [Before, hexpire, Function.update_self, Function.update_of_ne hne, g.arm_rank_self,
    g.arm_rank_of_ne time hne]
  -- a timer that is armed for a time before the start of the clock gets the least rank
  split <;> omega

/-- A timer that expires no later is before the one that is armed. -/
theorem Queue.before_of_le (h : Queue s g q) {a : α} {time : ℤ} (ha : a ∈ q) (hne : a ≠ ts)
    (hearlier : s.expireTime a ≤ time) (hexpire : t.expireTime = Function.update s.expireTime ts (max time 0)) :
    Before t (g.arm ts time) a ts := by
  have hpending := (h.pending a).1 ha
  have hbound := h.rank a
  rw [Before, hexpire, Function.update_self, Function.update_of_ne hne, g.arm_rank_self,
    g.arm_rank_of_ne time hne]
  split <;> omega

/-- The list with the timer that is armed between those that expire no later and those that expire later. -/
theorem Queue.arm {q₁ q₂ : List α} {time : ℤ} (h : Queue s g (q₁ ++ q₂)) (hts : ts ∉ q₁ ++ q₂)
    (hholds : t.Holds (q₁ ++ ts :: q₂)) (hexpire : t.expireTime = Function.update s.expireTime ts (max time 0))
    (hle : ∀ a ∈ q₁, s.expireTime a ≤ time) (hgt : ∀ b ∈ q₂, time < s.expireTime b) :
    Queue t (g.arm ts time) (q₁ ++ ts :: q₂) := by
  have hne : ∀ x ∈ q₁ ++ q₂, x ≠ ts := by
    rintro x hx rfl
    exact hts hx
  have hleft : ∀ a ∈ q₁, a ∈ q₁ ++ q₂ := fun a => List.mem_append_left q₂
  have hright : ∀ b ∈ q₂, b ∈ q₁ ++ q₂ := fun b => List.mem_append_right q₁
  refine ⟨hholds, ?_, fun x => ?_, fun x => ?_, fun x => ?_⟩
  · obtain ⟨h₁, h₂, h₁₂⟩ := List.pairwise_append.1 h.ordered
    refine List.pairwise_append.2 ⟨?_, List.pairwise_cons.2 ⟨fun b hb => ?_, ?_⟩, fun a ha b hb => ?_⟩
    · exact h₁.imp_of_mem fun ha hb hab => hab.arm (hne _ (hleft _ ha)) (hne _ (hleft _ hb)) hexpire
    · exact h.before_of_lt (hright b hb) (hne b (hright b hb)) (hgt b hb) hexpire
    · exact h₂.imp_of_mem fun ha hb hab => hab.arm (hne _ (hright _ ha)) (hne _ (hright _ hb)) hexpire
    · rcases List.mem_cons.1 hb with rfl | hb
      · exact h.before_of_le (hleft a ha) (hne a (hleft a ha)) (hle a ha) hexpire
      · exact (h₁₂ a ha b hb).arm (hne a (hleft a ha)) (hne b (hright b hb)) hexpire
  · rw [hexpire]
    by_cases hx : x = ts
    · subst hx
      simp
    · rw [Function.update_of_ne hx, ← h.pending x]
      simp [hx]
  · rw [hexpire]
    by_cases hx : x = ts
    · subst hx
      rw [Function.update_self]
      omega
    · rw [Function.update_of_ne hx]
      exact h.least x
  · have hcount : (g.arm ts time).count = g.count + 1 := rfl
    by_cases hx : x = ts
    · subst hx
      rw [g.arm_rank_self, hcount]
      split <;> omega
    · have hbound := h.rank x
      rw [g.arm_rank_of_ne time hx, hcount]
      omega

variable [Fintype α]

/-- **A timer is taken out.** -/
theorem Queue.del (h : Queue s g q) (ts : α) : ∃ t, s.timerDelLocked ts = .ok t ∧ Queue t g (q.erase ts) ∧
    t.expireTime = Function.update s.expireTime ts (-1) ∧ t.enabled = s.enabled := by
  obtain ⟨u, hu⟩ : ∃ u : TimerList α, u = { s with expireTime := Function.update s.expireTime ts (-1) } := ⟨_, rfl⟩
  have hholds : u.Holds ([] ++ q) := by
    rw [hu]
    exact h.holds
  obtain ⟨k, hk, herase⟩ := delFrom_holds ts hholds (Nat.lt_succ_of_le h.length_le)
  subst hu
  exact ⟨_, hk, h.remove herase, rfl, rfl⟩

/-- **A timer is put in**, behind those that expire no later. -/
theorem Queue.modLocked (h : Queue s g q) (hts : ts ∉ q) (time : ℤ) : ∃ q₁ q₂ t, q = q₁ ++ q₂ ∧
    s.timerModNsLocked ts time = .ok (q₁.isEmpty, t) ∧ Queue t (g.arm ts time) (q₁ ++ ts :: q₂) ∧
    t.expireTime = Function.update s.expireTime ts (max time 0) ∧ t.enabled = s.enabled := by
  have hholds : s.Holds ([] ++ q) := h.holds
  obtain ⟨q₁, q₂, rfl, hplace, hle, hlt⟩ := place_behind time hholds (Nat.lt_succ_of_le h.length_le)
  rw [List.nil_append] at hplace
  have hgt : ∀ b ∈ q₂, time < s.expireTime b := by
    intro b hb
    cases q₂ with
    | nil => cases hb
    | cons a q₂ =>
      have ha : time < s.expireTime a := hlt a rfl
      rcases List.mem_cons.1 hb with rfl | hb
      · exact ha
      · have hab := List.rel_of_pairwise_cons (List.pairwise_append.1 h.ordered).2.1 hb
        exact ha.trans_le hab.le
  obtain ⟨u, hu⟩ : ∃ u : TimerList α, u = { s with
    expireTime := Function.update s.expireTime ts (max time 0)
    next := Function.update s.next ts (s.get q₁.getLast?) } := ⟨_, rfl⟩
  have hmod : s.timerModNsLocked ts time = .ok (q₁.isEmpty, { u with toLinks := u.set q₁.getLast? (some ts) }) := by
    rw [timerModNsLocked, show s.place time (Fintype.card α + 1) none = _ from hplace, hu]
    cases q₁ using List.reverseRecOn <;> simp
  have hholds : (u.set q₁.getLast? (some ts)).Holds (q₁ ++ ts :: q₂) := by
    have huholds : u.Holds (q₁ ++ q₂) := by
      rw [hu]
      exact h.holds.update hts _
    refine huholds.set ?_ fun a ha ha' => ?_
    · rw [hu]
      exact h.holds.get.push fun hmem => hts (List.mem_append_right q₁ hmem)
    · rcases List.mem_cons.1 ha' with rfl | ha'
      · exact hts (List.mem_append_left q₂ ha)
      · exact List.disjoint_of_nodup_append h.holds.nodup ha ha'
  have htimes : u.expireTime = Function.update s.expireTime ts (max time 0) := by rw [hu]
  exact ⟨q₁, q₂, _, rfl, hmod, h.arm hts hholds htimes hle hgt, htimes, by rw [hu]⟩

/-! ## Operations -/

/-- A timer that has been taken out is put in. -/
theorem Queue.rearm (h : Queue s g q) (ht : Queue t g (q.erase ts))
    (hexpire : ∀ x, x ≠ ts → t.expireTime x = s.expireTime x) (henabled : t.enabled = s.enabled) (time : ℤ) :
    ∃ b u q', t.timerModNsLocked ts time = .ok (b, u) ∧ Queue u (g.arm ts time) q' ∧ u.enabled = s.enabled ∧
      (b = false → OldHead s u q q') ∧ u.expireTime = Function.update s.expireTime ts (max time 0) ∧
      q'.erase ts = q.erase ts := by
  obtain ⟨q₁, q₂, u, hq, hu, hqueue, hexpire', henabled'⟩ := ht.modLocked h.holds.nodup.not_mem_erase time
  have htimes : u.expireTime = Function.update s.expireTime ts (max time 0) := by
    rw [hexpire']
    funext x
    by_cases hx : x = ts
    · subst hx
      simp
    · simp [hx, hexpire x hx]
  refine ⟨_, u, _, hu, hqueue, henabled'.trans henabled, fun hb => ⟨fun hen => ?_, fun a ha => ?_⟩, htimes, ?_⟩
  · rw [← henabled, ← henabled']
    exact hen
  · cases q₁ with
    | nil => cases hb
    | cons x q₁ =>
      cases ha
      have hmem : a ∈ q.erase ts := by
        rw [hq]
        exact List.mem_cons_self
      obtain ⟨hne, hmem⟩ := h.holds.nodup.mem_erase_iff.1 hmem
      rw [htimes, Function.update_of_ne hne]
      exact ⟨hmem, rfl⟩
  · have hts : ts ∉ q₁ := by
      intro hmem
      refine h.holds.nodup.not_mem_erase (a := ts) ?_
      rw [hq]
      exact List.mem_append_left q₂ hmem
    rw [hq, List.erase_append_right _ hts, List.erase_cons_head]

/-- **What a call does**, if anything: its timer gets its time, and the others stay as they are.  If the
    list is not notified, its first timer is an old one. -/
theorem Queue.call (h : Queue s g q) (c : TimerCall α) : ∃ b t q', s.call c = .ok (b, t) ∧
    Queue t (g.call s c) q' ∧ t.enabled = s.enabled ∧ (b = false → OldHead s t q q') ∧
    (t = s ∧ q' = q ∧ g.call s c = g ∨ t.expireTime = Function.update s.expireTime c.timer c.time ∧
      q'.erase c.timer = q.erase c.timer) := by
  cases c with
  | mod ts time =>
    obtain ⟨t, ht, hqueue, hexpire, hen⟩ := h.del ts
    have hother : ∀ x, x ≠ ts → t.expireTime x = s.expireTime x := by
      intro x hx
      rw [hexpire, Function.update_of_ne hx]
    obtain ⟨b, u, q', hu, hqueue', hen', hold, htimes, herase⟩ := h.rearm hqueue hother hen time
    refine ⟨b, u, q', ?_, hqueue', hen', hold, .inr ⟨htimes, herase⟩⟩
    rw [TimerList.call, timerModNs, ht]
    exact hu
  | modAnticipate ts time =>
    rw [TimerList.call, timerModAnticipateNs, Arms.call]
    split
    · -- a timer that is not pending is not in the list
      have hout : ∃ t, (if s.expireTime ts ≠ -1 then s.timerDelLocked ts else .ok s) = .ok t ∧
          Queue t g (q.erase ts) ∧ (∀ x, x ≠ ts → t.expireTime x = s.expireTime x) ∧ t.enabled = s.enabled := by
        by_cases hts : s.expireTime ts = -1
        · have hmem : ts ∉ q := by
            rw [h.pending, hts]
            decide
          rw [if_neg (not_not.2 hts), List.erase_of_not_mem hmem]
          exact ⟨s, rfl, h, fun _ _ => rfl, rfl⟩
        · rw [if_pos hts]
          obtain ⟨t, ht, hqueue, hexpire, hen⟩ := h.del ts
          refine ⟨t, ht, hqueue, fun x hx => ?_, hen⟩
          rw [hexpire, Function.update_of_ne hx]
      obtain ⟨t, ht, hqueue, hother, hen⟩ := hout
      obtain ⟨b, u, q', hu, hqueue', hen', hold, htimes, herase⟩ := h.rearm hqueue hother hen time
      refine ⟨b, u, q', ?_, hqueue', hen', hold, .inr ⟨htimes, herase⟩⟩
      rw [ht]
      exact hu
    · exact ⟨false, s, q, rfl, h, rfl, fun _ => oldHead_self, .inl ⟨rfl, rfl, rfl⟩⟩
  | del ts =>
    obtain ⟨t, ht, hqueue, hexpire, hen⟩ := h.del ts
    refine ⟨false, t, q.erase ts, ?_, hqueue, hen, fun _ => oldHead_erase h hexpire hen, .inr ⟨hexpire, ?_⟩⟩
    · rw [TimerList.call, ht]
      rfl
    · exact List.erase_of_not_mem h.holds.nodup.not_mem_erase

theorem Queue.op (h : Queue s g q) (o : TimerOp α) : ∃ b t q', s.op o = .ok (b, t) ∧
    Queue t (g.op s o) q' ∧ (b = false → OldHead s t q q') := by
  cases o with
  | call c =>
    obtain ⟨b, t, q', ht, hqueue, -, hold, -⟩ := h.call c
    exact ⟨b, t, q', ht, hqueue, hold⟩
  | expire now =>
    rcases h.expireOne now with ⟨hnone, -⟩ | ⟨ts, t, -, -, hsome, hqueue, hexpire, hen⟩
    · refine ⟨false, s, q, ?_, h, fun _ => oldHead_self⟩
      rw [TimerList.op, hnone]
      rfl
    · refine ⟨false, t, q.erase ts, ?_, hqueue, fun _ => oldHead_erase h hexpire hen⟩
      rw [TimerList.op, hsome]
      rfl
  | enable enabled =>
    refine ⟨_, _, q, rfl, ⟨h.holds, h.ordered, h.pending, h.least, h.rank⟩, fun hb => ⟨fun hen => ?_, fun a ha => ?_⟩⟩
    · dsimp only at hen
      simpa [hen] using hb
    · exact ⟨List.mem_of_mem_head? ha, rfl⟩

/-! ## Runs -/

/-- An operation, with the count of the arms. -/
def step (p : TimerList α × Arms α) (o : TimerOp α) : Except Fault (TimerList α × Arms α) := do
  let (_, s) ← p.1.op o
  .ok (s, p.2.op p.1 o)

theorem queue_run (ops : List (TimerOp α)) : ∃ s g q, run step (init, .init) ops = .ok (s, g) ∧ Queue s g q := by
  have hinv : Post (fun p : TimerList α × Arms α => ∃ q, Queue p.1 p.2 q) (fun _ => False)
      (run step (init, .init) ops) := by
    refine Post.run (C := fun _ _ => True) ?_ ⟨[], queue_init⟩ fun _ _ _ => trivial
    rintro ⟨s, g⟩ o ⟨q, h⟩ -
    obtain ⟨b, t, q', ht, hqueue, -⟩ := h.op o
    rw [step, ht]
    exact ⟨q', hqueue⟩
  obtain ⟨⟨s, g⟩, hs, q, hqueue⟩ := post_ok.1 hinv
  exact ⟨s, g, q, hs, hqueue⟩

end TimerList

open TimerList

variable {α : Type} [DecidableEq α] [Fintype α]

/-- **The pending timers are in the list, in the order in which they expire**, and those that expire at the
    same time by their rank, after any operations. -/
theorem timers_ordered (ops : List (TimerOp α)) : ∃ s g q, run TimerList.step (.init, .init) ops = .ok (s, g) ∧
    s.Holds q ∧ (∀ t, t ∈ q ↔ s.timerPending t = true) ∧ q.Pairwise (Before s g) := by
  obtain ⟨s, g, q, hs, h⟩ := queue_run ops
  refine ⟨s, g, q, hs, h.holds, fun t => ?_, h.ordered⟩
  rw [h.pending, timerPending, decide_eq_true_iff]

/-- **The deadline is that of the timer that expires first, and does not get earlier unnoticed.** -/
theorem deadline_notified (ops : List (TimerOp α)) (now : ℤ) : ∃ s g, run TimerList.step (.init, .init) ops = .ok (s, g) ∧
    (s.deadlineNs now = -1 ↔ s.enabled = false ∨ ∀ t, s.timerPending t = false) ∧
    (s.deadlineNs now ≠ -1 → ∃ ts, s.timerPending ts = true ∧ s.deadlineNs now = max (s.expireTime ts - now) 0 ∧
      ∀ t, s.timerPending t = true → s.expireTime ts ≤ s.expireTime t) ∧
    ∀ o, ∃ b t, s.op o = .ok (b, t) ∧
      (t.deadlineNs now ≠ -1 → s.deadlineNs now = -1 ∨ t.deadlineNs now < s.deadlineNs now → b = true) := by
  obtain ⟨s, g, q, hs, h⟩ := queue_run ops
  have hpending : ∀ t, s.timerPending t = true ↔ t ∈ q := by
    intro t
    rw [h.pending, timerPending, decide_eq_true_iff]
  refine ⟨s, g, hs, ?_, fun hne => ?_, fun o => ?_⟩
  · rw [h.deadline_eq_none]
    simp only [← Bool.not_eq_true, hpending, List.eq_nil_iff_forall_not_mem]
  · obtain ⟨ts, hts, hdeadline⟩ := h.deadline_eq hne
    refine ⟨ts, (hpending ts).2 (List.mem_of_mem_head? hts), hdeadline, fun t ht => ?_⟩
    exact h.head_le hts ((hpending t).1 ht)
  · obtain ⟨b, t, q', ht, hqueue, hold⟩ := h.op o
    refine ⟨b, t, ht, fun hne hearlier => ?_⟩
    cases b with
    | true => rfl
    | false =>
      -- the first timer is an old one, so that the deadline before was no later
      obtain ⟨hen, hhead⟩ := hold rfl
      obtain ⟨ts, hts, hdeadline⟩ := hqueue.deadline_eq hne
      obtain ⟨hmem, hexpire⟩ := hhead ts hts
      have hle := h.deadline_le now (hen (enabled_of_deadline hne)) hmem
      rw [hexpire] at hdeadline
      omega

end Bluepill
