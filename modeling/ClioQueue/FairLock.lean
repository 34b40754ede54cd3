/-
# The fair lock

`FairBoundedFileLock` of `clio_relay/queue_store_lock.py`, for any number of threads.  Its
critical sections are the steps: a call to `acquire` takes a ticket and checks once whether it
is its turn, and a waiting thread checks again when it wakes, or when its deadline has passed.
Between two sections the owner takes the file lock, and nothing else of the lock changes.

Besides the fields of the class a state has the threads that wait with a ticket, the threads
inside, which were granted the lock and have not passed it on, and the granted tickets, the
newest first.  A thread may step at any time: that it does not while it waits only leaves runs
out.
-/

import Mathlib.Data.Finset.Card

namespace ClioQueue

/-- The fields of `FairBoundedFileLock` and the threads that use it. -/
structure FairLock (Thread : Type) where
  owner : Option Thread
  depth : Nat
  nextTicket : Nat
  serving : Nat
  abandoned : Finset Nat
  waiting : Nat → Option Thread
  inside : Thread → Bool
  grants : List Nat

/-- What a thread does, or what happens to the thread that waits with a ticket; `expired` says
whether its deadline has passed. -/
inductive LockEvent (Thread : Type) where
  | acquire (thread : Thread) (expired : Bool)
  | wake (ticket : Nat) (expired : Bool)
  | fileFailed (thread : Thread)
  | release (thread : Thread) (failed : Bool)
  | interrupt (ticket : Nat)

namespace FairLock

variable {Thread : Type}

/-- A lock that nobody has used. -/
def unused : FairLock Thread := ⟨none, 0, 0, 0, ∅, fun _ => none, fun _ => false, []⟩

/-- The loop of `_skip_abandoned_tickets_locked`. -/
def skipTickets : Nat → FairLock Thread → FairLock Thread
  | 0, l => l
  | steps + 1, l =>
    if l.serving ∈ l.abandoned then
      skipTickets steps
        { l with abandoned := l.abandoned.erase l.serving, serving := l.serving + 1 }
    else l

/-- `_skip_abandoned_tickets_locked`. -/
def skipAbandonedTickets (l : FairLock Thread) : FairLock Thread :=
  skipTickets l.abandoned.card l

/-- The thread of a ticket no longer waits. -/
def leave (l : FairLock Thread) (ticket : Nat) : FairLock Thread :=
  { l with waiting := Function.update l.waiting ticket none }

variable [DecidableEq Thread]

/-- One check of the wait loop of `acquire`. -/
def check (l : FairLock Thread) (thread : Thread) (ticket : Nat) (expired : Bool) :
    FairLock Thread :=
  if l.owner = none ∧ ticket = l.serving then
    { l.leave ticket with
      owner := some thread, depth := 1, inside := Function.update l.inside thread true,
      grants := ticket :: l.grants }
  else if expired then
    skipAbandonedTickets { l.leave ticket with abandoned := insert ticket l.abandoned }
  else l

/-- The owner gives the lock up. -/
def pass (l : FairLock Thread) (thread : Thread) : FairLock Thread :=
  skipAbandonedTickets
    { l with
      owner := none, depth := 0, serving := l.serving + 1,
      inside := Function.update l.inside thread false }

/-- A new ticket, with which the thread waits. -/
def take (l : FairLock Thread) (thread : Thread) : FairLock Thread :=
  { l with
    nextTicket := l.nextTicket + 1
    waiting := Function.update l.waiting l.nextTicket (some thread) }

/-- One critical section. -/
def step (l : FairLock Thread) : LockEvent Thread → FairLock Thread
  | .acquire thread expired =>
    if l.owner = some thread then { l with depth := l.depth + 1 }
    else (l.take thread).check thread l.nextTicket expired
  | .wake ticket expired =>
    match l.waiting ticket with
    | some thread => l.check thread ticket expired
    | none => l
  | .fileFailed thread => if l.owner = some thread then l.pass thread else l
  | .release thread failed =>
    if l.owner ≠ some thread ∨ l.depth = 0 then l
    else if 1 < l.depth then { l with depth := l.depth - 1 }
    else if failed then l
    else l.pass thread
  | .interrupt ticket => l.leave ticket

omit [DecidableEq Thread]

variable {l : FairLock Thread} {thread : Thread}

/-- **Every ticket from the serving one on** is given up, waited with, or the owner's. -/
structure Tickets (l : FairLock Thread) : Prop where
  inside : ∀ t, l.inside t = true ↔ l.owner = some t
  bound : l.serving ≤ l.nextTicket
  issued : ∀ k, k ∈ l.abandoned ∨ (l.waiting k).isSome ∨ k = l.serving ∧ l.owner.isSome ↔
    l.serving ≤ k ∧ k < l.nextTicket
  waits : ∀ k, (l.waiting k).isSome → k ∉ l.abandoned
  owned : l.owner.isSome → l.serving ∉ l.abandoned ∧ l.waiting l.serving = none
  ordered : l.grants.Pairwise (· > ·)
  granted : ∀ g ∈ l.grants, g ≤ l.serving ∧ (l.owner = none → g < l.serving)

/-- Between two critical sections the serving ticket is not given up. -/
structure Fair (l : FairLock Thread) : Prop extends Tickets l where
  rested : l.serving ∉ l.abandoned

/-- **The skip loop** goes on to the first ticket that is not given up. -/
theorem skipTickets_eq {steps : Nat} (hsteps : l.abandoned.card ≤ steps)
    (hle : ∀ k ∈ l.abandoned, l.serving ≤ k) :
    ∃ serving, skipTickets steps l =
        { l with serving, abandoned := l.abandoned.filter (serving ≤ ·) } ∧
      l.serving ≤ serving ∧ serving ∉ l.abandoned ∧
      ∀ k, l.serving ≤ k → k < serving → k ∈ l.abandoned := by
  induction steps generalizing l with
  | zero =>
    have hnone : l.abandoned = ∅ := Finset.card_eq_zero.1 (Nat.le_zero.1 hsteps)
    refine ⟨l.serving, ?_, Nat.le_refl _, by simp [hnone], fun k h h' => by omega⟩
    rw [hnone, Finset.filter_empty, ← hnone]
    rfl
  | succ steps ih =>
    rw [skipTickets]
    by_cases hmem : l.serving ∈ l.abandoned
    · rw [if_pos hmem]
      obtain ⟨serving, heq, hserving, hnot, hall⟩ := @ih
        { l with abandoned := l.abandoned.erase l.serving, serving := l.serving + 1 }
        (by simp only [Finset.card_erase_of_mem hmem]; omega) (fun k hk => by
          obtain ⟨hne, hk⟩ := Finset.mem_erase.1 hk
          exact Nat.lt_of_le_of_ne (hle k hk) (Ne.symm hne))
      simp only at heq hserving hnot hall
      refine ⟨serving, ?_, by omega, fun h => hnot (Finset.mem_erase.2 ⟨by omega, h⟩),
        fun k hk hlt => ?_⟩
      · rw [heq]
        congr 1
        ext k
        simp only [Finset.mem_filter, Finset.mem_erase]
        exact ⟨fun h => ⟨h.1.2, h.2⟩, fun h => ⟨⟨by omega, h.1⟩, h.2⟩⟩
      · rcases Nat.eq_or_lt_of_le hk with rfl | hk
        · exact hmem
        · exact Finset.mem_of_mem_erase (hall k hk hlt)
    · rw [if_neg hmem]
      refine ⟨l.serving, ?_, Nat.le_refl _, hmem, fun k h h' => by omega⟩
      rw [Finset.filter_true_of_mem hle]

theorem Tickets.skip (h : Tickets l) : Fair l.skipAbandonedTickets := by
  obtain ⟨serving, heq, hserving, hnot, hall⟩ :=
    skipTickets_eq (Nat.le_refl _) fun k hk => ((h.issued k).1 (.inl hk)).1
  have hkept : l.owner.isSome → serving = l.serving := fun hsome => by
    by_contra hne
    exact (h.owned hsome).1 (hall _ (Nat.le_refl _) (by omega))
  obtain ⟨hins, hbd, hissued, hwaits, hown, hord, hgranted⟩ := h
  rw [skipAbandonedTickets, heq]
  refine ⟨⟨hins, ?_, fun k => ?_, ?_, ?_, hord, ?_⟩, ?_⟩
  all_goals
    simp only [Finset.mem_filter]
    grind

/-- **A new ticket** is waited with. -/
theorem Fair.take (h : Fair l) : Fair (l.take thread) := by
  obtain ⟨⟨hins, hbd, hissued, hwaits, hown, hord, hgranted⟩, hrested⟩ := h
  refine ⟨⟨hins, ?_, fun k => ?_, ?_, ?_, hord, hgranted⟩, hrested⟩
  all_goals
    simp only [FairLock.take, Function.update_apply]
    grind

variable [DecidableEq Thread]

/-- **One check keeps the tickets**, whatever it comes to. -/
theorem Fair.check (h : Fair l) {ticket : Nat} {expired : Bool}
    (hwait : (l.waiting ticket).isSome) : Fair (l.check thread ticket expired) := by
  unfold FairLock.check
  split_ifs with hturn hexp
  · obtain ⟨⟨hins, hbd, hissued, hwaits, hown, hord, hgranted⟩, hrested⟩ := h
    obtain ⟨hnone, rfl⟩ := hturn
    have hlast : (l.serving :: l.grants).Pairwise (· > ·) :=
      List.pairwise_cons.2 ⟨fun g hg => (hgranted g hg).2 hnone, hord⟩
    refine ⟨⟨fun t => ?_, hbd, fun k => ?_, ?_, ?_, hlast, ?_⟩, hrested⟩
    all_goals
      simp only [leave, Function.update_apply]
      grind
  · obtain ⟨⟨hins, hbd, hissued, hwaits, hown, hord, hgranted⟩, hrested⟩ := h
    refine Tickets.skip ⟨hins, hbd, fun k => ?_, ?_, ?_, hord, hgranted⟩
    all_goals
      simp only [leave, Function.update_apply, Finset.mem_insert]
      grind
  · exact h

/-- **The owner passes the lock on.** -/
theorem Fair.pass (h : Fair l) (howner : l.owner = some thread) : Fair (l.pass thread) := by
  obtain ⟨⟨hins, hbd, hissued, hwaits, hown, hord, hgranted⟩, hrested⟩ := h
  refine Tickets.skip ⟨fun t => ?_, ?_, fun k => ?_, hwaits, nofun, hord, ?_⟩
  all_goals
    simp only [Function.update_apply]
    grind

/-- **A step keeps the tickets**, when it interrupts no waiting thread. -/
theorem Fair.step (h : Fair l) {event : LockEvent Thread} (hkept : ∀ k, event ≠ .interrupt k) :
    Fair (l.step event) := by
  rcases event with ⟨thread, expired⟩ | ⟨ticket, expired⟩ | thread | ⟨thread, failed⟩ | ticket
  · simp only [FairLock.step]
    split_ifs with howner
    · exact { h with }
    · exact h.take.check (by simp [FairLock.take])
  · simp only [FairLock.step]
    split
    · rename_i hwait
      exact h.check (by rw [hwait]; rfl)
    · exact h
  · simp only [FairLock.step]
    split_ifs with howner
    · exact h.pass howner
    · exact h
  · simp only [FairLock.step]
    split_ifs with href
    · exact h
    · exact { h with }
    · exact h
    · exact h.pass (not_not.1 (not_or.1 href).1)
  · exact absurd rfl (hkept ticket)

/-- **Fair lock tickets.**  After any run in which no waiting thread is interrupted, at most one
thread is inside, the tickets were granted in order, each before every one that is waited with,
and if nobody owns the lock and some thread waits, one waits with the serving ticket. -/
theorem fair_lock_tickets (events : List (LockEvent Thread))
    (hkept : ∀ event ∈ events, ∀ k, event ≠ .interrupt k) :
    let l := events.foldl step unused
    (∀ t u, l.inside t = true → l.inside u = true → t = u) ∧
    (l.grants.Pairwise (· > ·) ∧ ∀ g ∈ l.grants, ∀ k, (l.waiting k).isSome → g < k) ∧
    (l.owner = none → ∀ k, (l.waiting k).isSome → (l.waiting l.serving).isSome) := by
  have h : Fair (events.foldl step (unused : FairLock Thread)) := by
    have hunused : Fair (unused : FairLock Thread) := by
      constructor
      · constructor <;> simp [unused]
      · simp [unused]
    generalize (unused : FairLock Thread) = l at hunused
    induction events generalizing l with
    | nil => exact hunused
    | cons event events ih =>
      exact ih (fun e he => hkept e (.tail _ he)) _ (hunused.step (hkept event (.head _)))
  refine ⟨fun t u ht hu => ?_, ⟨h.ordered, fun g hg k hk => ?_⟩, fun hnone k hk => ?_⟩
  · exact Option.some.inj (((h.inside t).1 ht).symm.trans ((h.inside u).1 hu))
  · have hplace := (h.issued k).1 (.inr (.inl hk))
    obtain ⟨hserved, hlater⟩ := h.granted g hg
    rcases howner : (events.foldl step unused).owner with _ | t
    · exact (hlater howner).trans_le hplace.1
    · obtain ⟨-, hnone⟩ := h.owned (by rw [howner]; rfl)
      refine hserved.trans_lt (Nat.lt_of_le_of_ne hplace.1 ?_)
      rintro rfl
      rw [hnone] at hk
      cases hk
  · have hplace := (h.issued k).1 (.inr (.inl hk))
    obtain hmem | hwaits | ⟨-, hsome⟩ := (h.issued _).2 ⟨Nat.le_refl _, hplace.1.trans_lt hplace.2⟩
    · exact absurd hmem h.rested
    · exact hwaits
    · rw [hnone] at hsome
      cases hsome

/-- Two threads wait behind the owner, and the deadline of the first passes. -/
theorem fair_lock_tickets_sample :
    let l := [LockEvent.acquire 0 false, .acquire 1 false, .acquire 2 false, .wake 1 true,
      .release 0 false].foldl step (unused : FairLock Nat)
    (l.waiting l.serving).isSome :=
  (fair_lock_tickets _ (by simp)).2.2 (by decide) 2 (by decide)

/-- A waiting thread is interrupted: the ticket that it leaves blocks the next one. -/
theorem interrupted_ticket_blocks :
    let l := [LockEvent.acquire 0 false, .acquire 1 false, .acquire 2 false, .interrupt 1,
      .release 0 false].foldl step (unused : FairLock Nat)
    l.owner = none ∧ l.waiting 2 = some 2 ∧ l.waiting l.serving = none := by
  decide

end FairLock

end ClioQueue
