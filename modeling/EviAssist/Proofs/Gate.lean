import EviAssist.Gate.Schedule
import Mathlib.Data.List.Sort

/-!
# Who goes in when

Callers come to the gate at any moments and stay for any times. They go in one after another in
the order in which they came; nobody waits while the gate is free, and nobody gives up before the
time or after it.

* `Gate.Schedule.Stay`, `Gate.Schedule.stays`: who is inside from when to when.
* `Gate.Schedule.IsTaken`: others are inside all the time between two moments.
* `Gate.Schedule.line`: who is still to go in or to give up: those who wait, then those who are
  still to come.
* `Gate.Schedule.step?_cases`: the single things that happen.
* `Gate.Schedule.Lawful`, `Gate.Schedule.Fair`: what has happened so far is as it is to be;
  whatever happens next, it stays so.
* `Gate.Schedule.callers_take_turns`: what this says of all callers.
-/

namespace EviAssist.Gate

/-- A caller who waits from the arrival on. -/
def Caller.waiter (c : Caller) (wait n : Nat) : Waiter :=
  ⟨n, c.hold, c.arrival + wait⟩

namespace Schedule

/-! ## Stays -/

/-- A caller inside: when the caller came, went in and leaves. -/
structure Stay where
  caller : Nat
  arrival : Nat
  starts : Nat
  ends : Nat
  deriving DecidableEq, Inhabited, Repr

/-- The stay that a turn leads to, if the caller got in. -/
def stay? (callers : List Caller) (turn : Turn) : Option Stay :=
  if turn.gotIn then
    callers[turn.caller]?.map fun c => ⟨turn.caller, c.arrival, turn.time, turn.time + c.hold⟩
  else none

/-- The stays of the callers that got in, in the order in which they did. -/
def stays (callers : List Caller) (turns : List Turn) : List Stay :=
  turns.filterMap (stay? callers)

/-- Whether someone else than a caller is inside at every moment from one until before another. -/
def IsTaken (stays : List Stay) (caller start stop : Nat) : Prop :=
  ∀ time, start ≤ time → time < stop →
    ∃ stay ∈ stays, stay.caller ≠ caller ∧ stay.starts ≤ time ∧ time < stay.ends

variable {wait : Nat} {callers : List Caller}

theorem stays_append (turns later : List Turn) :
    stays callers (turns ++ later) = stays callers turns ++ stays callers later :=
  List.filterMap_append

theorem stays_singleton {n time : Nat} {c : Caller} (hc : callers[n]? = some c) :
    stays callers [⟨n, time, true⟩] = [⟨n, c.arrival, time, time + c.hold⟩] := by
  simp [stays, stay?, hc]

theorem stays_gaveUp (n time : Nat) : stays callers [⟨n, time, false⟩] = [] := by
  simp [stays, stay?]

theorem caller_of_mem_stays {turns : List Turn} {stay : Stay} (h : stay ∈ stays callers turns) :
    stay.caller ∈ turns.map (·.caller) := by
  obtain ⟨turn, hm, hs⟩ := List.mem_filterMap.1 h
  unfold stay? at hs
  split at hs
  · obtain ⟨c, -, rfl⟩ := Option.map_eq_some_iff.1 hs
    exact List.mem_map_of_mem hm
  · cases hs

theorem isTaken_self (stays : List Stay) (caller start : Nat) :
    IsTaken stays caller start start := by
  intro time hs ht
  omega

theorem IsTaken.append {stays : List Stay} {caller start stop : Nat}
    (h : IsTaken stays caller start stop) (later : List Stay) :
    IsTaken (stays ++ later) caller start stop := by
  intro time hs ht
  obtain ⟨stay, hm, hstay⟩ := h time hs ht
  exact ⟨stay, List.mem_append_left _ hm, hstay⟩

theorem IsTaken.mono {stays : List Stay} {caller start stop stop' : Nat}
    (h : IsTaken stays caller start stop) (hle : stop' ≤ stop) :
    IsTaken stays caller start stop' :=
  fun time hs ht => h time hs (ht.trans_le hle)

theorem IsTaken.extend {stays : List Stay} {caller start : Nat} {stay : Stay}
    (h : IsTaken stays caller start stay.starts) (hm : stay ∈ stays)
    (hne : stay.caller ≠ caller) : IsTaken stays caller start stay.ends := by
  intro time hs ht
  by_cases hlt : time < stay.starts
  · exact h time hs hlt
  · exact ⟨stay, hm, hne, by omega, ht⟩

/-! ## Single steps -/

/-- Who is still to go in or to give up: those who wait, then those who are still to come. -/
def line (s : Schedule) : List Waiter :=
  s.gate.waiting ++ s.coming.map fun x => x.2.waiter s.wait x.1

/-- A caller joins the line. -/
def join (s : Schedule) (n : Nat) (c : Caller) (rest : List (Nat × Caller)) : Schedule :=
  { s with
    coming := rest
    gate := s.gate.queue (c.waiter s.wait n)
    foundBusy := s.foundBusy ++ [n] }

variable {s s' : Schedule}

theorem arrive_of_inside_eq_none (h : s.gate.inside = none) (n : Nat) (c : Caller)
    (rest : List (Nat × Caller)) :
    s.arrive n c rest = { s with coming := rest }.enter c.arrival (c.waiter s.wait n) := by
  simp only [arrive, h]
  rfl

theorem arrive_of_inside_eq_some {holder : Holder} (h : s.gate.inside = some holder) (n : Nat)
    (c : Caller) (rest : List (Nat × Caller)) : s.arrive n c rest = s.join n c rest := by
  simp only [arrive, h]
  rfl

theorem release_of_nil (h : s.gate.waiting = []) (time : Nat) :
    s.release time = { s with gate := {} } := by
  simp [release, leave, h]

theorem release_of_cons {w : Waiter} {rest : List Waiter} (h : s.gate.waiting = w :: rest)
    (time : Nat) :
    s.release time = { s with gate := { inside := none, waiting := rest } }.enter time w := by
  simp [release, leave, h]

theorem le_head_of_notAfter {leaves : Nat}
    (h : Earliest.notAfter (some leaves) s.nextWaitOrCome = true) :
    (∀ w ∈ s.gate.waiting.head?, leaves ≤ w.deadline) ∧
      ∀ x ∈ s.coming.head?, leaves ≤ x.2.arrival := by
  cases hw : s.gate.waiting <;> cases hc : s.coming <;>
    simp [nextWaitOrCome, hw, hc, Earliest.notAfter] at h ⊢ <;> omega

/-- **What happens**: a caller finds the gate free and goes in, or joins the line; the first in
line gives up; or the one inside leaves. -/
theorem step?_cases (h : s.step? = some s') (hi : s.gate.inside = none → s.gate.waiting = []) :
    (∃ n c rest, s.gate.inside = none ∧ s.coming = (n, c) :: rest ∧
      s' = { s with coming := rest }.enter c.arrival (c.waiter s.wait n)) ∨
    (∃ holder n c rest, s.gate.inside = some holder ∧ s.coming = (n, c) :: rest ∧
      c.arrival < holder.leaves ∧ s' = s.join n c rest) ∨
    (∃ holder w rest, s.gate.inside = some holder ∧ s.gate.waiting = w :: rest ∧
      w.deadline < holder.leaves ∧ s' = s.expire w) ∨
    ∃ holder, s.gate.inside = some holder ∧
      Earliest.notAfter (some holder.leaves) s.nextWaitOrCome = true ∧
      s' = s.release holder.leaves := by
  unfold step? at h
  split at h
  · rename_i holder hin
    split at h
    · cases h
      exact .inr (.inr (.inr ⟨holder, hin, ‹_›, rfl⟩))
    · rename_i hlt
      unfold waitOrCome at h
      split at h
      · rename_i w rest hw hc
        cases h
        simp [nextWaitOrCome, hw, hc, Earliest.notAfter] at hlt
        exact .inr (.inr (.inl ⟨holder, w, rest, hin, hw, hlt, rfl⟩))
      · rename_i w rest n c coming hw hc
        simp [nextWaitOrCome, hw, hc, Earliest.notAfter] at hlt
        split at h <;> cases h
        · exact .inr (.inr (.inl ⟨holder, w, rest, hin, hw, by omega, rfl⟩))
        · rw [arrive_of_inside_eq_some hin]
          exact .inr (.inl ⟨holder, n, c, coming, hin, hc, by omega, rfl⟩)
      · rename_i n c coming hw hc
        cases h
        simp [nextWaitOrCome, hw, hc, Earliest.notAfter] at hlt
        rw [arrive_of_inside_eq_some hin]
        exact .inr (.inl ⟨holder, n, c, coming, hin, hc, hlt, rfl⟩)
      · cases h
  · rename_i hin
    unfold waitOrCome at h
    rw [hi hin] at h
    split at h
    · cases ‹[] = _ :: _›
    · cases ‹[] = _ :: _›
    · rename_i n c coming _ hc
      cases h
      rw [arrive_of_inside_eq_none hin]
      exact .inl ⟨n, c, coming, hin, hc, rfl⟩
    · cases h

theorem eq_nil_of_step?_eq_none (h : s.step? = none) :
    s.gate.inside = none ∧ s.gate.waiting = [] ∧ s.coming = [] := by
  have hnil : s.waitOrCome = none → s.gate.waiting = [] ∧ s.coming = [] := by
    intro hn
    unfold waitOrCome at hn
    split at hn
    · cases hn
    · split at hn <;> cases hn
    · cases hn
    · exact ⟨‹_›, ‹_›⟩
  unfold step? at h
  split at h
  · split at h
    · cases h
    · rename_i hlt
      obtain ⟨hw, hc⟩ := hnil h
      simp [nextWaitOrCome, hw, hc, Earliest.notAfter] at hlt
  · exact ⟨‹_›, hnil h⟩

theorem finish_induction {P : Schedule → Prop}
    (hs : ∀ {s s'}, P s → s.step? = some s' → P s') (h : P s) :
    P s.finish ∧ s.finish.step? = none := by
  induction s using finish.induct with
  | case1 s hn =>
    rw [finish]
    split
    · exact ⟨h, hn⟩
    · rename_i hsome
      cases hn.symm.trans hsome
  | case2 s s' hsome ih =>
    rw [finish]
    split
    · rename_i hn
      cases hn.symm.trans hsome
    · rename_i hsome'
      cases hsome.symm.trans hsome'
      exact ih (hs h hsome)

/-! ## Lawful schedules -/

/-- Whether a caller fared as is right: the caller got in during the wait or gave up at its end,
and until then others were inside. -/
def Fares (wait : Nat) (callers : List Caller) (stays : List Stay) (turn : Turn) : Prop :=
  ∃ c, callers[turn.caller]? = some c ∧
    if turn.gotIn then
      c.arrival ≤ turn.time ∧ turn.time ≤ c.arrival + wait ∧
        IsTaken stays turn.caller c.arrival turn.time
    else turn.time = c.arrival + wait ∧ IsTaken stays turn.caller c.arrival (turn.time + 1)

theorem Fares.append {stays : List Stay} {turn : Turn} (h : Fares wait callers stays turn)
    (later : List Stay) : Fares wait callers (stays ++ later) turn := by
  obtain ⟨c, hc, hf⟩ := h
  refine ⟨c, hc, ?_⟩
  split
  · rw [if_pos ‹_›] at hf
    exact ⟨hf.1, hf.2.1, hf.2.2.append later⟩
  · rw [if_neg ‹_›] at hf
    exact ⟨hf.1, hf.2.append later⟩

/-- Whether the turns so far are as is right, and a line is that of the callers without a turn, in
the order in which they came. -/
structure Lawful (wait : Nat) (callers : List Caller) (turns : List Turn)
    (line : List Waiter) : Prop where
  waiter : ∀ w ∈ line, ∃ c, callers[w.caller]? = some c ∧ w = c.waiter wait w.caller
  everyone : (turns.map (·.caller) ++ line.map (·.caller)).Perm (List.range callers.length)
  inOrder : ((stays callers turns).map (·.arrival + wait) ++ line.map (·.deadline)).Pairwise
    (· ≤ ·)
  apart : (stays callers turns).Pairwise fun a b => a.ends ≤ b.starts
  fares : ∀ turn ∈ turns, Fares wait callers (stays callers turns) turn

variable {turns : List Turn} {line : List Waiter} {w : Waiter} {time : Nat}

theorem Lawful.deadlines (h : Lawful wait callers turns line) :
    line.Pairwise fun a b => a.deadline ≤ b.deadline :=
  List.pairwise_map.1 (List.pairwise_append.1 h.inOrder).2.1

theorem Lawful.ne_of_mem (h : Lawful wait callers turns line) (hw : w ∈ line) {stay : Stay}
    (hs : stay ∈ stays callers turns) : stay.caller ≠ w.caller := by
  have hd := (List.nodup_append.1 ((List.Perm.nodup_iff h.everyone).2 List.nodup_range)).2.2
  exact hd _ (caller_of_mem_stays hs) _ (List.mem_map_of_mem hw)

theorem Lawful.ne_of_mem_tail (h : Lawful wait callers turns (w :: line)) {v : Waiter}
    (hv : v ∈ line) : w.caller ≠ v.caller := by
  have hd := (List.nodup_append.1 ((List.Perm.nodup_iff h.everyone).2 List.nodup_range)).2.1
  intro heq
  exact (List.nodup_cons.1 hd).1 (List.mem_map.2 ⟨v, hv, heq.symm⟩)

theorem Lawful.admit (h : Lawful wait callers turns (w :: line)) {c : Caller}
    (hc : callers[w.caller]? = some c) (hstay : ∀ stay ∈ stays callers turns, stay.ends ≤ time)
    (ha : c.arrival ≤ time) (hd : time ≤ c.arrival + wait)
    (ht : IsTaken (stays callers turns) w.caller c.arrival time) :
    Lawful wait callers (turns ++ [⟨w.caller, time, true⟩]) line := by
  obtain ⟨c', hc', hw⟩ := h.waiter w (.head _)
  cases hc.symm.trans hc'
  have hs := (stays_append turns [⟨w.caller, time, true⟩]).trans
    (congrArg (stays callers turns ++ ·) (stays_singleton hc))
  refine ⟨fun v hv => h.waiter v (.tail _ hv), ?_, ?_, ?_, ?_⟩
  · simpa using h.everyone
  · have hin := h.inOrder
    rw [List.map_cons, hw] at hin
    rw [hs]
    simpa [Caller.waiter] using hin
  · rw [hs, List.pairwise_append]
    refine ⟨h.apart, List.pairwise_singleton _ _, fun a hm b hb => ?_⟩
    rw [List.mem_singleton.1 hb]
    exact hstay a hm
  · intro turn hm
    rw [hs]
    obtain hm | hm := List.mem_append.1 hm
    · exact (h.fares turn hm).append _
    · rw [List.mem_singleton.1 hm]
      exact ⟨c, hc, ha, hd, ht.append _⟩

theorem Lawful.giveUp (h : Lawful wait callers turns (w :: line)) {c : Caller}
    (hc : callers[w.caller]? = some c)
    (ht : IsTaken (stays callers turns) w.caller c.arrival (w.deadline + 1)) :
    Lawful wait callers (turns ++ [⟨w.caller, w.deadline, false⟩]) line := by
  obtain ⟨c', hc', hw⟩ := h.waiter w (.head _)
  cases hc.symm.trans hc'
  have hs : stays callers (turns ++ [⟨w.caller, w.deadline, false⟩]) = stays callers turns := by
    rw [stays_append, stays_gaveUp, List.append_nil]
  refine ⟨fun v hv => h.waiter v (.tail _ hv), ?_, ?_, ?_, ?_⟩
  · simpa using h.everyone
  · rw [hs]
    exact h.inOrder.sublist ((List.sublist_cons_self _ _).append_left _)
  · rw [hs]
    exact h.apart
  · intro turn hm
    rw [hs]
    obtain hm | hm := List.mem_append.1 hm
    · exact h.fares turn hm
    · rw [List.mem_singleton.1 hm]
      exact ⟨c, hc, congrArg Waiter.deadline hw, ht⟩

/-! ## Fair schedules -/

/-- Whether someone is inside rightly: all others who were inside have left or leave no later, the
stay began before the next caller comes, and for those in line the gate is taken until it ends. -/
structure IsHeld (callers : List Caller) (s : Schedule) (holder : Holder) : Prop where
  last : ∀ stay ∈ stays callers s.turns, stay.ends ≤ holder.leaves
  current : ∃ stay ∈ stays callers s.turns, stay.caller = holder.caller ∧
    stay.ends = holder.leaves ∧ ∀ x ∈ s.coming, stay.starts ≤ x.2.arrival
  taken : ∀ w ∈ s.gate.waiting, ∀ c, callers[w.caller]? = some c →
    c.arrival ≤ holder.leaves ∧
      IsTaken (stays callers s.turns) w.caller c.arrival holder.leaves

/-- Whether all went as is right so far: the line is lawful, it is empty while the gate is free,
and who is inside is so rightly. -/
structure Fair (wait : Nat) (callers : List Caller) (s : Schedule) : Prop where
  wait_eq : s.wait = wait
  lawful : Lawful wait callers s.turns s.line
  free : s.gate.inside = none →
    s.gate.waiting = [] ∧
      ∀ stay ∈ stays callers s.turns, ∀ x ∈ s.coming, stay.ends ≤ x.2.arrival
  held : ∀ holder, s.gate.inside = some holder → s.IsHeld callers holder

theorem Fair.line_eq (h : s.Fair wait callers) :
    s.line = s.gate.waiting ++ s.coming.map fun x => x.2.waiter wait x.1 := by
  rw [Schedule.line, h.wait_eq]

theorem Fair.getElem?_of_mem_coming (h : s.Fair wait callers) {n : Nat} {c : Caller}
    (hm : (n, c) ∈ s.coming) : callers[n]? = some c := by
  have hw : c.waiter wait n ∈ s.line := by
    rw [h.line_eq]
    exact List.mem_append_right _ (List.mem_map_of_mem hm)
  obtain ⟨c', hc', heq⟩ := h.lawful.waiter _ hw
  have hc : c = c' := by
    cases c
    cases c'
    simp [Caller.waiter] at heq ⊢
    omega
  rw [hc]
  exact hc'

theorem le_of_le_head {α : Type} {f : α → Nat} {l : List α} {bound : Nat}
    (hl : l.Pairwise fun a b => f a ≤ f b) (hb : ∀ a ∈ l.head?, bound ≤ f a) :
    ∀ a ∈ l, bound ≤ f a := by
  cases l with
  | nil => nofun
  | cons a l =>
    have ha := hb a rfl
    rintro b (_ | ⟨_, hm⟩)
    · exact ha
    · exact ha.trans ((List.pairwise_cons.1 hl).1 b hm)

theorem Fair.coming_inOrder (h : s.Fair wait callers) :
    s.coming.Pairwise fun a b => a.2.arrival ≤ b.2.arrival := by
  have hd := h.lawful.deadlines
  rw [h.line_eq] at hd
  have hc := List.pairwise_map.1 (List.pairwise_append.1 hd).2.1
  exact hc.imp fun hle => by simpa [Caller.waiter] using hle

theorem isHeld_enter {c : Caller} (hc : callers[w.caller]? = some c) (hhold : w.hold = c.hold)
    (hlast : ∀ stay ∈ stays callers s.turns, stay.ends ≤ time)
    (hcome : ∀ x ∈ s.coming, time ≤ x.2.arrival)
    (htaken : ∀ v ∈ s.gate.waiting, w.caller ≠ v.caller ∧ ∀ c', callers[v.caller]? = some c' →
      c'.arrival ≤ time ∧ IsTaken (stays callers s.turns) v.caller c'.arrival time) :
    (s.enter time w).IsHeld callers ⟨w.caller, time + w.hold⟩ := by
  let stay : Stay := ⟨w.caller, c.arrival, time, time + c.hold⟩
  have hs : stays callers (s.enter time w).turns = stays callers s.turns ++ [stay] := by
    rw [enter, stays_append, stays_singleton hc]
  have hmem : stay ∈ stays callers s.turns ++ [stay] := List.mem_append_right _ (.head _)
  rw [hhold]
  refine ⟨?_, ⟨stay, hs ▸ hmem, rfl, rfl, hcome⟩, ?_⟩
  · intro st hm
    rw [hs, List.mem_append, List.mem_singleton] at hm
    rcases hm with hm | rfl
    · exact (hlast st hm).trans (Nat.le_add_right _ _)
    · exact le_rfl
  · intro v hv c' hc'
    obtain ⟨hne, hv⟩ := htaken v hv
    obtain ⟨hle, ht⟩ := hv c' hc'
    rw [hs]
    exact ⟨hle.trans (Nat.le_add_right _ _), (ht.append [stay]).extend hmem hne⟩

theorem Fair.arrive (h : s.Fair wait callers) {n : Nat} {c : Caller} {rest : List (Nat × Caller)}
    (hi : s.gate.inside = none) (hc : s.coming = (n, c) :: rest) :
    ({ s with coming := rest }.enter c.arrival (c.waiter s.wait n)).Fair wait callers := by
  obtain ⟨hw, hfree⟩ := h.free hi
  have hn : callers[n]? = some c := h.getElem?_of_mem_coming (hc ▸ .head _)
  have hstay : ∀ stay ∈ stays callers s.turns, stay.ends ≤ c.arrival := fun stay hm =>
    hfree stay hm (n, c) (hc ▸ .head _)
  have hl := h.lawful
  rw [h.line_eq, hw, hc] at hl
  have hlater := h.coming_inOrder
  rw [hc] at hlater
  refine ⟨h.wait_eq, ?_, nofun, ?_⟩
  · have hl' := hl.admit hn hstay le_rfl (Nat.le_add_right _ _) (isTaken_self _ _ _)
    simpa [line, enter, Gate.enter, hw, h.wait_eq] using hl'
  · intro holder hin
    cases hin
    refine isHeld_enter hn rfl hstay (List.pairwise_cons.1 hlater).1 ?_
    intro v hv
    rw [hw] at hv
    cases hv

theorem Fair.join (h : s.Fair wait callers) {holder : Holder} {n : Nat} {c : Caller}
    {rest : List (Nat × Caller)} (hi : s.gate.inside = some holder)
    (hc : s.coming = (n, c) :: rest) (hlt : c.arrival < holder.leaves) :
    (s.join n c rest).Fair wait callers := by
  have hn : callers[n]? = some c := h.getElem?_of_mem_coming (hc ▸ .head _)
  have hl : (s.join n c rest).line = s.line := by
    simp [line, Schedule.join, Gate.queue, hc]
  have hheld := h.held holder hi
  obtain ⟨stay, hm, hcaller, hends, hstarts⟩ := hheld.current
  refine ⟨h.wait_eq, ?_, ?_, ?_⟩
  · rw [hl]
    exact h.lawful
  · intro hnone
    cases hi.symm.trans hnone
  · intro holder' hi'
    cases hi.symm.trans hi'
    refine ⟨hheld.last, ⟨stay, hm, hcaller, hends, ?_⟩, ?_⟩
    · intro x hx
      exact hstarts x (hc ▸ .tail _ hx)
    · intro w hw c' hc'
      rcases List.mem_append.1 hw with hw | hw
      · exact hheld.taken w hw c' hc'
      · -- The one inside came before the new caller and leaves later.
        rw [List.mem_singleton] at hw
        subst hw
        cases hn.symm.trans hc'
        have hmem : c.waiter s.wait n ∈ s.line := by simp [line, hc]
        have hne : stay.caller ≠ n := h.lawful.ne_of_mem hmem hm
        refine ⟨hlt.le, fun time hs ht => ⟨stay, hm, hne, ?_, ?_⟩⟩
        · exact (hstarts (n, c) (hc ▸ .head _)).trans hs
        · exact hends ▸ ht

theorem Fair.expire (h : s.Fair wait callers) {holder : Holder} {w : Waiter} {rest : List Waiter}
    (hi : s.gate.inside = some holder) (hw : s.gate.waiting = w :: rest)
    (hlt : w.deadline < holder.leaves) : (s.expire w).Fair wait callers := by
  have hheld := h.held holder hi
  have hl := h.lawful
  rw [line, hw] at hl
  obtain ⟨c, hc, -⟩ := hl.waiter w (.head _)
  obtain ⟨-, htaken⟩ := hheld.taken w (hw ▸ .head _) c hc
  have hs : stays callers (s.expire w).turns = stays callers s.turns := by
    simp [Schedule.expire, stays_append, stays_gaveUp]
  refine ⟨h.wait_eq, ?_, ?_, ?_⟩
  · have := hl.giveUp hc (htaken.mono hlt)
    simpa [line, Schedule.expire, Gate.giveUp, hw] using this
  · intro hnone
    cases hi.symm.trans hnone
  · intro holder' hi'
    cases hi.symm.trans hi'
    refine ⟨?_, ?_, ?_⟩
    · rw [hs]
      exact hheld.last
    · rw [hs]
      exact hheld.current
    · intro v hv
      rw [hs]
      refine hheld.taken v ?_
      simp only [Schedule.expire, Gate.giveUp, hw, List.drop_one, List.tail_cons] at hv
      exact hw ▸ .tail _ hv

theorem Fair.release (h : s.Fair wait callers) {holder : Holder}
    (hi : s.gate.inside = some holder)
    (hnext : Earliest.notAfter (some holder.leaves) s.nextWaitOrCome = true) :
    (s.release holder.leaves).Fair wait callers := by
  have hheld := h.held holder hi
  obtain ⟨hdeadline, harrival⟩ := le_head_of_notAfter hnext
  have hcome := le_of_le_head h.coming_inOrder harrival
  cases hw : s.gate.waiting with
  | nil =>
    rw [release_of_nil hw]
    refine ⟨h.wait_eq, ?_, fun _ => ⟨rfl, ?_⟩, nofun⟩
    · have hl := h.lawful
      rw [line, hw] at hl
      exact hl
    · intro stay hm x hx
      exact (hheld.last stay hm).trans (hcome x hx)
  | cons w rest =>
    rw [release_of_cons hw]
    have hl := h.lawful
    rw [line, hw] at hl
    obtain ⟨c, hc, hcw⟩ := hl.waiter w (.head _)
    obtain ⟨hle, htaken⟩ := hheld.taken w (hw ▸ .head _) c hc
    have hd : holder.leaves ≤ c.arrival + wait := by
      have := hdeadline w (by rw [hw]; rfl)
      rwa [hcw] at this
    refine ⟨h.wait_eq, ?_, nofun, ?_⟩
    · have hl' := hl.admit hc hheld.last hle hd htaken
      simpa [line, enter, Gate.enter] using hl'
    · intro next hin
      cases hin
      refine isHeld_enter hc (congrArg Waiter.hold hcw) hheld.last hcome ?_
      intro v hv
      exact ⟨hl.ne_of_mem_tail (List.mem_append_left _ hv), hheld.taken v (hw ▸ .tail _ hv)⟩

/-- **Whatever happens, all goes on as is right.** -/
theorem Fair.step (h : s.Fair wait callers) (hs : s.step? = some s') : s'.Fair wait callers := by
  rcases step?_cases hs fun hi => (h.free hi).1 with
    ⟨n, c, rest, hi, hc, rfl⟩ | ⟨holder, n, c, rest, hi, hc, hlt, rfl⟩ |
    ⟨holder, w, rest, hi, hw, hlt, rfl⟩ | ⟨holder, hi, hnext, rfl⟩
  · exact h.arrive hi hc
  · exact h.join hi hc hlt
  · exact h.expire hi hw hlt
  · exact h.release hi hnext

/-! ## All callers -/

theorem mem_inOrder {n : Nat} {c : Caller} :
    (n, c) ∈ inOrder callers ↔ callers[n]? = some c := by
  rw [inOrder, List.mem_mergeSort, List.mem_map]
  constructor
  · rintro ⟨⟨c', n'⟩, hm, heq⟩
    cases heq
    exact List.mem_zipIdx_iff_getElem?.1 hm
  · intro hc
    exact ⟨(c, n), List.mem_zipIdx_iff_getElem?.2 hc, rfl⟩

theorem map_fst_inOrder_perm (callers : List Caller) :
    ((inOrder callers).map (·.1)).Perm (List.range callers.length) := by
  refine ((List.mergeSort_perm _ _).map _).trans ?_
  rw [List.map_map, List.range_eq_range', ← List.zipIdx_map_snd 0 callers]
  rfl

theorem inOrder_pairwise (callers : List Caller) :
    (inOrder callers).Pairwise fun a b => a.2.arrival ≤ b.2.arrival := by
  have hp : (inOrder callers).Pairwise fun a b => decide (a.2.arrival ≤ b.2.arrival) = true := by
    refine List.pairwise_mergeSort ?_ ?_ _
    · intro a b c hab hbc
      exact decide_eq_true ((of_decide_eq_true hab).trans (of_decide_eq_true hbc))
    · intro a b
      simpa using Nat.le_total a.2.arrival b.2.arrival
  exact hp.imp of_decide_eq_true

theorem fair_start (wait : Nat) (callers : List Caller) :
    Fair wait callers { wait, coming := inOrder callers } where
  wait_eq := rfl
  lawful := by
    refine ⟨?_, ?_, ?_, .nil, nofun⟩
    · intro w hw
      obtain ⟨⟨n, c⟩, hm, rfl⟩ := List.mem_map.1 hw
      exact ⟨c, mem_inOrder.1 hm, rfl⟩
    · simpa [line, Function.comp_def, Caller.waiter] using map_fst_inOrder_perm callers
    · simpa [line, stays, Caller.waiter, List.pairwise_map] using inOrder_pairwise callers
  free := fun _ => ⟨rfl, nofun⟩
  held := nofun

/-- **Callers take turns.** Every caller has one turn: the caller got in some time from the arrival
until the end of the wait, or gave up at its end, and at every moment until then someone else was
inside. The stays of those who got in follow one another in the order in which the callers came,
and in the end the gate is free. -/
theorem callers_take_turns (wait : Nat) (callers : List Caller) :
    let s := ofCallers wait callers
    (s.turns.map (·.caller)).Perm (List.range callers.length) ∧
      (∀ turn ∈ s.turns, ∃ c, callers[turn.caller]? = some c ∧
        ((s.outcome turn = .ok () ∧ c.arrival ≤ turn.time ∧ turn.time ≤ c.arrival + wait ∧
            IsTaken (stays callers s.turns) turn.caller c.arrival turn.time) ∨
          (s.outcome turn = .error (.gateTimeout (.ofMillis wait)) ∧
            turn.time = c.arrival + wait ∧
            IsTaken (stays callers s.turns) turn.caller c.arrival (turn.time + 1)))) ∧
      ((stays callers s.turns).Pairwise fun a b => a.ends ≤ b.starts ∧ a.arrival ≤ b.arrival) ∧
      s.gate.isBusy = false := by
  intro s
  obtain ⟨hf, hnone⟩ : s.Fair wait callers ∧ s.step? = none :=
    finish_induction Fair.step (fair_start wait callers)
  obtain ⟨hi, hw, hc⟩ := eq_nil_of_step?_eq_none hnone
  have hl := hf.lawful
  rw [line, hw, hc] at hl
  refine ⟨by simpa using hl.everyone, ?_, ?_, by rw [isBusy, hi]; rfl⟩
  · intro turn hm
    obtain ⟨c, hc, hturn⟩ := hl.fares turn hm
    refine ⟨c, hc, ?_⟩
    cases hg : turn.gotIn with
    | true =>
      rw [hg, if_pos rfl] at hturn
      exact .inl ⟨by simp [outcome, hg], hturn⟩
    | false =>
      rw [hg, if_neg Bool.false_ne_true] at hturn
      exact .inr ⟨by simp [outcome, hg, hf.wait_eq], hturn⟩
  · have harrival := (List.pairwise_append.1 hl.inOrder).1
    refine hl.apart.and ((List.pairwise_map.1 harrival).imp ?_)
    intro a b hle
    omega

end Schedule

end EviAssist.Gate
