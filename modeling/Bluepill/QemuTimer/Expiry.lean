/-
  The timers that expire (`timerlist_run_timers`).

  The loop takes the first timer out while it is due and runs its callback, which may change the
  rest of the machine and make calls for any timers; the time is read once, before the loop.
  A callback that arms a timer for a time that has passed makes the loop run again, and can keep
  it from ending.

  `timers_fire`: when the callbacks arm timers for later times only, the loop ends, and no timer
  is due then; the timers that fire are timers that were due, each once, in the order of the
  list.  One that was due is only missing if the callback of another timer deletes or re-arms it.
-/
import Bluepill.QemuTimer

namespace Bluepill

open Machine

/-- A callback: the calls that it makes and the state of the machine that it leaves. -/
abbrev TimerCb (α σ : Type) := α → σ → List (TimerCall α) × σ

namespace TimerList

variable {α σ : Type} [DecidableEq α] {s t : TimerList α} {g : Arms α} {q : List α} {now : ℤ} {cb : TimerCb α σ}

theorem filter_erase {p : α → Bool} {x : α} (hq : q.Nodup) (hx : p x = false) : (q.erase x).filter p = q.filter p := by
  rw [hq.erase_eq_filter, List.filter_filter]
  refine List.filter_congr fun y _ => ?_
  by_cases hy : y = x
  · subst hy
    simp [hx]
  · simp [hy]

variable [Fintype α]

def after (s : TimerList α) (c : TimerCall α) : Except Fault (TimerList α) := (s.call c).map Prod.snd

/-- The loop of `timerlist_run_timers`: the timers that fire, in turn. -/
def runFrom (cb : TimerCb α σ) (now : ℤ) : ℕ → σ → TimerList α → Except Fault (List α × σ × TimerList α)
  | 0, _, _ => .error .outOfFuel
  | fuel + 1, w, s =>
    match s.expireOne now with
    | none => .ok ([], w, s)
    | some (ts, s) => do
      let (calls, w) := cb ts w
      let s ← run after s calls
      let (fired, r) ← runFrom cb now fuel w s
      .ok (ts :: fired, r)

/-- `timerlist_run_timers`. -/
def timerlistRunTimers (cb : TimerCb α σ) (now : ℤ) (fuel : ℕ) (w : σ) (s : TimerList α) :
    Except Fault (List α × σ × TimerList α) :=
  if !s.enabled then .ok ([], w, s) else runFrom cb now fuel w s

/-- The timer is pending and due. -/
def due (s : TimerList α) (now : ℤ) (x : α) : Bool := 0 ≤ s.expireTime x ∧ s.expireTime x ≤ now

/-- The call does not arm a timer for a time that has passed. -/
def Later (now : ℤ) : TimerCall α → Prop
  | .mod _ time | .modAnticipate _ time => now < time
  | .del _ => True

/-- The call leaves the timer `x`, which is due, as it is; `timer_mod_anticipate_ns` for a later time does. -/
def Spares (x : α) : TimerCall α → Prop
  | .mod ts _ | .del ts => ts ≠ x
  | .modAnticipate _ _ => True

theorem call_modAnticipate_of_due {x : α} {time : ℤ} (hx : s.due now x = true) (htime : now < time) :
    s.call (.modAnticipate x time) = .ok (false, s) := by
  simp only [due, decide_eq_true_eq] at hx
  rw [TimerList.call, timerModAnticipateNs, if_neg (by omega)]

/-- A call makes no timer due, and leaves those that it spares. -/
theorem Queue.after {c : TimerCall α} (h : Queue s g q) (hc : Later now c) : ∃ t g' q',
    s.after c = .ok t ∧ Queue t g' q' ∧ (q'.filter (t.due now)).Sublist (q.filter (s.due now)) ∧
      ∀ x, Spares x c → s.due now x = true → t.due now x = true := by
  obtain ⟨b, t, q', ht, hqueue, -, -, hcall⟩ := h.call c
  refine ⟨t, g.call s c, q', by rw [TimerList.after, ht]; rfl, hqueue, ?_⟩
  rcases hcall with ⟨rfl, rfl, -⟩ | ⟨htimes, herase⟩
  · exact ⟨List.Sublist.refl _, fun _ _ => id⟩
  have hself : t.due now c.timer = false := by
    rw [due, htimes, Function.update_self, decide_eq_false_iff_not]
    cases c with
    | mod ts time | modAnticipate ts time =>
      have htime : now < time := hc
      simp only [TimerCall.time]
      omega
    | del ts =>
      simp only [TimerCall.time]
      omega
  have hother : ∀ x, x ≠ c.timer → t.due now x = s.due now x := by
    intro x hx
    rw [due, due, htimes, Function.update_of_ne hx]
  refine ⟨?_, fun x hspares hx => ?_⟩
  · have hfilter : q'.filter (t.due now) = (q.erase c.timer).filter (s.due now) := by
      rw [← filter_erase hqueue.holds.nodup hself, herase]
      exact List.filter_congr fun x hx => hother x (h.holds.nodup.mem_erase_iff.1 hx).1
    rw [hfilter]
    exact List.erase_sublist.filter _
  · by_cases hne : x = c.timer
    · -- the timer of the call is spared, so that the call does nothing
      cases c with
      | mod ts time | del ts => exact absurd hne.symm hspares
      | modAnticipate ts time =>
        cases hne
        cases (call_modAnticipate_of_due hx hc).symm.trans ht
        exact hx
    · exact (hother x hne).trans hx

/-- The calls of a callback make no timer due, and leave those that they spare. -/
theorem Queue.run_after {calls : List (TimerCall α)} (h : Queue s g q) (hcalls : ∀ c ∈ calls, Later now c) :
    ∃ t g' q', run TimerList.after s calls = .ok t ∧ Queue t g' q' ∧
      (q'.filter (t.due now)).Sublist (q.filter (s.due now)) ∧
      ∀ x, (∀ c ∈ calls, Spares x c) → s.due now x = true → t.due now x = true := by
  induction calls generalizing s g q with
  | nil => exact ⟨s, g, q, rfl, h, List.Sublist.refl _, fun _ _ => id⟩
  | cons c calls ih =>
    rw [List.forall_mem_cons] at hcalls
    obtain ⟨t, g', q', ht, hqueue, hsub, hspared⟩ := h.after hcalls.1
    obtain ⟨u, g'', q'', hu, hqueue', hsub', hspared'⟩ := ih hqueue hcalls.2
    refine ⟨u, g'', q'', run_cons_ok.2 ⟨t, ht, hu⟩, hqueue', hsub'.trans hsub, fun x hx hdue => ?_⟩
    rw [List.forall_mem_cons] at hx
    exact hspared' x hx.2 (hspared x hx.1 hdue)

theorem Queue.runFrom {fuel : ℕ} (hcb : ∀ ts w, ∀ c ∈ (cb ts w).1, Later now c) (h : Queue s g q)
    (hfuel : (q.filter (s.due now)).length < fuel) (w : σ) :
    ∃ fired w' t g' q', runFrom cb now fuel w s = .ok (fired, w', t) ∧ Queue t g' q' ∧ q'.filter (t.due now) = [] ∧
      fired.Sublist (q.filter (s.due now)) ∧
      ∀ x, (∀ ts w, ts ≠ x → ∀ c ∈ (cb ts w).1, Spares x c) → s.due now x = true → x ∈ fired := by
  induction fuel generalizing s g q w with
  | zero => cases hfuel
  | succ fuel ih =>
    rcases h.expireOne now with ⟨hnone, hlater⟩ | ⟨ts, t, hts, hdue, hsome, hqueue, hexpire, -⟩
    · have hnot : ∀ x ∈ q, s.due now x ≠ true := by
        intro x hx
        have hx' := hlater x hx
        simp only [due, decide_eq_true_eq, ne_eq]
        omega
      refine ⟨[], w, s, g, q, ?_, h, List.filter_eq_nil_iff.2 hnot, List.nil_sublist _, fun x _ hx => ?_⟩
      · rw [TimerList.runFrom, hnone]
      · exact absurd hx (hnot x ((h.pending x).2 (of_decide_eq_true hx).1))
    · -- the first timer is taken out, and its callback run
      obtain ⟨q, rfl⟩ := List.head?_eq_some_iff.1 hts
      rw [List.erase_cons_head] at hqueue
      have hother : ∀ x, x ≠ ts → t.due now x = s.due now x := by
        intro x hx
        rw [due, due, hexpire, Function.update_of_ne hx]
      have hfilter : (ts :: q).filter (s.due now) = ts :: q.filter (t.due now) := by
        have hpending := (h.pending ts).1 List.mem_cons_self
        rw [List.filter_cons_of_pos (by simp [due, hpending, hdue])]
        refine congrArg _ (List.filter_congr fun x hx => (hother x ?_).symm)
        rintro rfl
        exact (List.nodup_cons.1 h.holds.nodup).1 hx
      rw [hfilter] at hfuel ⊢
      obtain ⟨u, g', q', hu, hqueue', hsub, hspared⟩ := hqueue.run_after (hcb ts w)
      obtain ⟨fired, w', v, g'', q'', hv, hqueue'', hnone, hsub', hfires⟩ := ih hqueue'
        (hsub.length_le.trans_lt (Nat.lt_of_succ_lt_succ hfuel)) (cb ts w).2
      refine ⟨ts :: fired, w', v, g'', q'', ?_, hqueue'', hnone, (hsub'.trans hsub).cons_cons ts, fun x hx hxdue => ?_⟩
      · rw [TimerList.runFrom, hsome]
        dsimp only
        rw [hu, ok_bind, hv]
        rfl
      · by_cases hne : x = ts
        · rw [hne]
          exact List.mem_cons_self
        · have ht : t.due now x = true := (hother x hne).trans hxdue
          exact List.mem_cons_of_mem ts (hfires x hx (hspared x (hx ts w (Ne.symm hne)) ht))

end TimerList

open TimerList

variable {α σ : Type} [DecidableEq α] [Fintype α]

/-- **The timers that are due fire**, in order, when the callbacks arm timers for later; all but those that the
    callback of another timer deletes or re-arms. -/
theorem timers_fire (ops : List (TimerOp α)) {cb : TimerCb α σ} {now : ℤ}
    (hcb : ∀ ts w, ∀ c ∈ (cb ts w).1, Later now c) (w : σ) :
    ∃ s g, run TimerList.step (.init, .init) ops = .ok (s, g) ∧ (s.enabled = true →
      ∃ fired w' t, timerlistRunTimers cb now (Fintype.card α + 1) w s = .ok (fired, w', t) ∧
        fired.Nodup ∧ fired.Pairwise (Before s g) ∧
        (∀ x ∈ fired, s.timerPending x = true ∧ s.expireTime x ≤ now) ∧
        (∀ x, t.timerPending x = true → now < t.expireTime x) ∧
        ∀ x, s.timerPending x = true → s.expireTime x ≤ now →
          (∀ ts w, ts ≠ x → ∀ c ∈ (cb ts w).1, Spares x c) → x ∈ fired) := by
  obtain ⟨s, g, q, hs, h⟩ := queue_run ops
  refine ⟨s, g, hs, fun hen => ?_⟩
  have hfuel : (q.filter (s.due now)).length < Fintype.card α + 1 :=
    Nat.lt_succ_of_le (List.filter_sublist.length_le.trans h.length_le)
  obtain ⟨fired, w', t, g', q', ht, hqueue, hnone, hsub, hfires⟩ := h.runFrom hcb hfuel w
  have hsub' : fired.Sublist q := hsub.trans List.filter_sublist
  refine ⟨fired, w', t, ?_, h.holds.nodup.sublist hsub', h.ordered.sublist hsub', fun x hx => ?_, fun x hx => ?_,
    fun x hx hdue hspared => ?_⟩
  · rw [timerlistRunTimers, hen]
    exact ht
  · have hx' := (List.mem_filter.1 (hsub.subset hx)).2
    simpa [due, timerPending] using hx'
  · rw [timerPending, decide_eq_true_iff] at hx
    have hx' := List.filter_eq_nil_iff.1 hnone x ((hqueue.pending x).2 hx)
    simp only [due, decide_eq_true_eq] at hx'
    omega
  · rw [timerPending, decide_eq_true_iff] at hx
    exact hfires x hspared (by simp [due, hx, hdue])

/-- Each timer is armed again, for later and later times, and the timer `1` deletes the timer `2`. -/
def again : TimerCb (Fin 4) ℕ := fun ts w => (if ts = 1 then [.del 2, .mod 1 (w + 10)] else [.mod ts (w + 10)], w + 1)

/-- Four timers, of which three are due at `7`; the last one armed is for a time before the start of the clock. -/
def threeDue : List (TimerOp (Fin 4)) := [.call (.mod 1 5), .call (.mod 0 9), .call (.mod 2 5), .call (.mod 3 (-5))]

theorem timers_fire_threeDue : ∃ s g fired w t, run TimerList.step (.init, .init) threeDue = .ok (s, g) ∧
    timerlistRunTimers again 7 5 0 s = .ok (fired, w, t) ∧ fired.Pairwise (Before s g) ∧
      1 ∈ fired ∧ 3 ∈ fired ∧ 0 ∉ fired := by
  have hcb : ∀ ts w, ∀ c ∈ (again ts w).1, Later 7 c := by
    intro ts w c hc
    have htime : (7 : ℤ) < w + 10 := by omega
    dsimp only [again] at hc
    split at hc
    · rcases List.mem_pair.1 hc with rfl | rfl
      · exact trivial
      · exact htime
    · rw [List.mem_singleton.1 hc]
      exact htime
  have hspared : ∀ x, x ≠ 2 → ∀ ts w, ts ≠ x → ∀ c ∈ (again ts w).1, Spares x c := by
    intro x hx ts w hne c hc
    dsimp only [again] at hc
    split at hc
    case isTrue h =>
      subst h
      rcases List.mem_pair.1 hc with rfl | rfl
      · exact hx.symm
      · exact hne
    case isFalse =>
      rw [List.mem_singleton.1 hc]
      exact hne
  have hrun : ∃ p, run TimerList.step (.init, .init) threeDue = .ok p ∧ p.1.enabled = true ∧
      p.1.expireTime 0 = 9 ∧ p.1.expireTime 1 = 5 ∧ p.1.expireTime 3 = 0 := by
    rw [← post_ok]
    decide +kernel
  obtain ⟨s, g, hs, h⟩ := timers_fire threeDue hcb 0
  obtain ⟨p, hp, hen, h0, h1, h3⟩ := hrun
  rw [hs] at hp
  cases hp
  dsimp only at hen h0 h1 h3
  obtain ⟨fired, w, t, ht, -, hordered, hdue, -, hall⟩ := h hen
  refine ⟨s, g, fired, w, t, hs, ht, hordered, ?_, ?_, fun h0' => ?_⟩
  · exact hall 1 (by simp [timerPending, h1]) (by simp [h1]) (hspared 1 (by decide))
  · exact hall 3 (by simp [timerPending, h3]) (by simp [h3]) (hspared 3 (by decide))
  · have hle := (hdue 0 h0').2
    simp [h0] at hle

end Bluepill
