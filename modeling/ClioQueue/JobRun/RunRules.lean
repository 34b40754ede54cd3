/-
# Rules for programs over a job

A program over a job is shown to keep what it keeps of the run alone, whether or not a cancellation
is requested: `Holds` is the weakest precondition for both.  A request to cancel, which others may
make at any place of a program, does not change the run of a job that a worker has
(`holds_reach`).
-/

import ClioQueue.JobRun.WorkerRun

namespace ClioQueue.JobRun

open Durable Durable.Prog Wire Jarvis Recovery

variable {φ α β : Type}

/-- Every run that the program leaves meets `C`, a result `Q`, and what is raised `E`. -/
def Holds (m : JobProg φ α) (C : Run φ → Prop) (Q : α → Run φ → Prop) (E : Fault → Run φ → Prop)
    (run : Run φ) : Prop :=
  ∀ canceled, m.wp (fun s => C s.run) (fun a s _ => Q a s.run) (fun e s _ => E e s.run)
    ⟨run, canceled⟩ ()

section Rules

variable {C C' : Run φ → Prop} {Q Q' : α → Run φ → Prop} {R : β → Run φ → Prop}
  {E E' : Fault → Run φ → Prop} {run : Run φ}
  {fault : Fault} {m : JobProg φ α} {change : Run φ → Run φ} {stage : Stage} {s : Stored φ}
  {surroundings : Surroundings} {k : α → JobProg φ β}

theorem holds_pure {a : α} (h : Q a run) : Holds (pure a : JobProg φ α) C Q E run :=
  fun _ => (wp_pure a).2 h

theorem holds_raise (h : E fault run) : Holds (raise fault : JobProg φ α) C Q E run :=
  fun _ => (wp_raise fault).2 h

/-- **Sequencing.** -/
theorem holds_bind {f : α → JobProg φ β} (h : Holds m C (fun a run => Holds (f a) C R E run) E run) :
    Holds (m >>= f) C R E run := by
  intro canceled
  exact wp_then (h canceled) fun _ s _ h => h s.cancellationRequested

/-- **Consequence.** -/
theorem Holds.mono (h : Holds m C Q E run) (hC : ∀ run, C run → C' run)
    (hQ : ∀ a run, Q a run → Q' a run) (hE : ∀ e run, E e run → E' e run) : Holds m C' Q' E' run :=
  fun canceled => wp_mono (h canceled) (fun s => hC s.run) (fun a s _ => hQ a s.run)
    fun e s _ => hE e s.run

theorem holds_look {f : Stored φ → α} (h : ∀ canceled, Holds (k (f ⟨run, canceled⟩)) C R E run) :
    Holds (look f >>= k) C R E run := by
  intro canceled
  rw [wp_bind, wp_look]
  exact h canceled canceled

theorem holds_lookRun {f : Run φ → α} (h : Holds (k (f run)) C R E run) :
    Holds (look (fun s => f s.run) >>= k) C R E run :=
  holds_look fun _ => h

theorem holds_require {b : Bool} {k : Unit → JobProg φ β} (h : b = true → Holds (k ()) C R E run)
    (hE : E fault run) : Holds (require b fault >>= k) C R E run := by
  rcases b with _ | _
  · exact holds_raise hE
  · exact h rfl

theorem holds_ofExcept {x : Except Fault α} (h : ∀ a, x = .ok a → Holds (k a) C R E run)
    (hE : ∀ fault, x = .error fault → E fault run) : Holds (ofExcept x >>= k) C R E run := by
  rcases x with fault | a
  · exact holds_raise (hE fault rfl)
  · exact h a rfl

theorem holds_onRun {k : Unit → JobProg φ β} (hC : C (change run))
    (h : Holds (k ()) C R E (change run)) : Holds (onRun change >>= k) C R E run := by
  refine holds_bind fun canceled => ?_
  unfold onRun
  rw [wp_durably]
  exact ⟨hC, h⟩

theorem holds_onRun_last {Q : Unit → Run φ → Prop} (hC : C (change run)) (h : Q () (change run)) :
    Holds (onRun change) C Q E run := by
  intro _
  unfold onRun
  rw [wp_durably]
  exact ⟨hC, h⟩

/-- **A cancellation is requested**, of a job that is not queued. -/
theorem cancelJobIfActive_run (h : s.run.job ≠ .queued) : (cancelJobIfActive s).run = s.run := by
  unfold cancelJobIfActive
  split_ifs with hterm
  · rfl
  · rfl

/-- **A place of a program**, where others may ask to cancel the job, and something may fail. -/
theorem holds_reach {k : Unit → JobProg φ β} (hjob : run.job ≠ .queued) (hC : C run)
    (h : Holds (k ()) C R E run) (hE : ∀ fault, E fault run) :
    Holds (reach surroundings stage >>= k) C R E run := by
  have hfails : Holds (mayFail surroundings stage) C (fun _ run => Holds (k ()) C R E run) E
      run := by
    unfold mayFail
    rcases surroundings.faults stage with _ | fault
    · exact holds_pure h
    · exact holds_raise (hE fault)
  refine holds_bind (holds_bind ?_)
  unfold mayCancel
  by_cases hcancels : surroundings.cancels stage = true
  · rw [if_pos hcancels]
    intro _
    rw [wp_durably, cancelJobIfActive_run hjob]
    exact ⟨hC, hfails⟩
  · rw [if_neg hcancels]
    exact holds_pure hfails

theorem holds_reach_last {Q : Unit → Run φ → Prop} (hjob : run.job ≠ .queued) (hC : C run)
    (h : Q () run) (hE : ∀ fault, E fault run) : Holds (reach surroundings stage) C Q E run := by
  have hpure : Holds (reach surroundings stage >>= fun _ => (pure () : JobProg φ Unit)) C
      (fun _ => Q ()) E run := holds_reach hjob hC (holds_pure h) hE
  rwa [bind_pure_comp, id_map'] at hpure

/-- **The rule of an attempt.** -/
theorem holds_attempt {k : Except Fault α → JobProg φ β}
    (h : Holds m C (fun a run => Holds (k (.ok a)) C R E run) (fun fault run => Holds (k (.error fault)) C R E run) run) :
    Holds (attempt m >>= k) C R E run := by
  refine holds_bind fun canceled => ?_
  unfold attempt
  rw [wp_handle, wp_map]
  exact h canceled

/-- What a program leaves, wherever it stops. -/
theorem Holds.halts (h : Holds m C (fun _ => C) (fun _ => C) run) (hrun : C run) {canceled : Bool}
    (hs : s ∈ m.halts ⟨run, canceled⟩ ()) : C s.run :=
  wp_halts (I := fun s => C s.run) (h canceled) hrun s hs

end Rules

end ClioQueue.JobRun
