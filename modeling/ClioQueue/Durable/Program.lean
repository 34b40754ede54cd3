/-
# Programs over a durable store

A program reads a durable store of type `σ`, changes it by single atomic writes,
draws values it does not choose (a clock, random identifiers) from a supply of
type `ν`, and ends with a result or an error of type `ε`.  Besides the final
store it leaves a *trail*: the store after each of its durable writes, in order.
A process that stops during the program leaves its start state, a state of the
trail, or the final store (`Prog.halts`).

`Prog.wp m C Q E s v` is the weakest precondition: every state of the trail
meets `C`, a returned value meets `Q`, a raised error meets `E`.  The rules
`wp_bind`, `wp_durably`, `wp_draw`, … compute it along a program;
`Prog.Within R m` is the frame form, every state left by `m` is `R`-related to
the start.
-/

import Mathlib.Data.List.Basic
import Mathlib.Logic.Relation
import Mathlib.Tactic.Common

namespace Durable

/-- How a program ends: its result, the store and the supply it leaves, and the
store after each durable write. -/
structure Outcome (σ ν ε α : Type) where
  result : Except ε α
  store : σ
  supply : ν
  trail : List σ

/-- A program over a durable store and a supply of drawn values. -/
def Prog (σ ν ε α : Type) : Type := σ → ν → Outcome σ ν ε α

namespace Prog

variable {σ ν ε α β : Type}

/-- Run a program from a store and a supply. -/
def run (m : Prog σ ν ε α) (s : σ) (v : ν) : Outcome σ ν ε α := m s v

instance : Monad (Prog σ ν ε) where
  pure a := fun s v => ⟨.ok a, s, v, []⟩
  bind m f := fun s v =>
    match m s v with
    | ⟨.ok a, t, w, trail⟩ =>
      let o := f a t w
      ⟨o.result, o.store, o.supply, trail ++ o.trail⟩
    | ⟨.error e, t, w, trail⟩ => ⟨.error e, t, w, trail⟩

instance : LawfulMonad (Prog σ ν ε) := LawfulMonad.mk' _ (by
    intro α m
    funext s v
    show (match m s v with
      | ⟨.ok a, t, w, trail⟩ => (⟨.ok a, t, w, trail ++ []⟩ : Outcome σ ν ε α)
      | ⟨.error e, t, w, trail⟩ => ⟨.error e, t, w, trail⟩) = m s v
    rcases m s v with ⟨_ | a, t, w, trail⟩
    · rfl
    · simp only [List.append_nil])
  (fun _ _ => rfl)
  (by
    intro α β γ m f g
    funext s v
    simp only [bind]
    rcases m s v with ⟨_ | a, t, w, trail⟩
    · rfl
    · simp only
      rcases f a t w with ⟨_ | b, u, x, trail'⟩
      · rfl
      · simp only [List.append_assoc])

/-- End with an error. -/
def raise (e : ε) : Prog σ ν ε α := fun s v => ⟨.error e, s, v, []⟩

/-- Look at the store. -/
def look (f : σ → α) : Prog σ ν ε α := fun s v => ⟨.ok (f s), s, v, []⟩

/-- Change the store by one durable write. -/
def durably (f : σ → σ) : Prog σ ν ε Unit := fun s v => ⟨.ok (), f s, v, [f s]⟩

/-- Draw a value from the supply. -/
def draw (f : ν → α × ν) : Prog σ ν ε α := fun s v => ⟨.ok (f v).1, s, (f v).2, []⟩

/-- Continue with the value of an `Except`, or raise its error. -/
def ofExcept : Except ε α → Prog σ ν ε α
  | .ok a => pure a
  | .error e => raise e

/-- Raise `e` unless `b` holds. -/
def require (b : Bool) (e : ε) : Prog σ ν ε Unit := if b then pure () else raise e

/-- Run a program and translate the error it raises. -/
def mapError (f : ε → ε) (m : Prog σ ν ε α) : Prog σ ν ε α := fun s v =>
  { m s v with result := (m s v).result.mapError f }

/-- Run a program and handle the error it raises. -/
def handle (f : ε → Except ε α) (m : Prog σ ν ε α) : Prog σ ν ε α := fun s v =>
  match m s v with
  | ⟨.ok a, t, w, trail⟩ => ⟨.ok a, t, w, trail⟩
  | ⟨.error e, t, w, trail⟩ => ⟨f e, t, w, trail⟩

/-- Run a program and then another one however it ends; an error of the second one counts. -/
def finish (m : Prog σ ν ε α) (last : Prog σ ν ε Unit) : Prog σ ν ε α := fun s v =>
  let o := m s v
  let e := last o.store o.supply
  ⟨e.result.bind fun _ => o.result, e.store, e.supply, o.trail ++ e.trail⟩

/-- Run `f` on each element of a list, in order. -/
def each {γ : Type} (f : γ → Prog σ ν ε Unit) : List γ → Prog σ ν ε Unit
  | [] => pure ()
  | x :: xs => f x >>= fun _ => each f xs

/-- Run `f` on each element of a list, in order, and join the lists it returns. -/
def gather {γ δ : Type} (f : γ → Prog σ ν ε (List δ)) : List γ → Prog σ ν ε (List δ)
  | [] => pure []
  | x :: xs => f x >>= fun ys => gather f xs >>= fun zs => pure (ys ++ zs)

/-- The stores a process can leave behind once the program has started: one of
the trail when it stops after that write, or the last one. -/
def halts (m : Prog σ ν ε α) (s : σ) (v : ν) : List σ :=
  s :: (m.run s v).trail ++ [(m.run s v).store]

/-- The store left by a process that stops after `writes` durable writes, if the program makes
as many. -/
def stopped (m : Prog σ ν ε α) (writes : Nat) (s : σ) (v : ν) : σ :=
  (m.halts s v).getD writes (m.run s v).store

theorem stopped_mem_halts (m : Prog σ ν ε α) (writes : Nat) (s : σ) (v : ν) :
    m.stopped writes s v ∈ m.halts s v := by
  unfold stopped
  rw [List.getD_eq_getElem?_getD]
  rcases hget : (m.halts s v)[writes]? with _ | t
  · exact List.mem_append_right _ (.head _)
  · exact List.mem_of_getElem? hget

/-! ### Weakest preconditions -/

/-- Every store of the trail meets `C`; the result meets `Q`, the error `E`. -/
def wp (m : Prog σ ν ε α) (C : σ → Prop) (Q : α → σ → ν → Prop) (E : ε → σ → ν → Prop)
    (s : σ) (v : ν) : Prop :=
  (∀ t ∈ (m.run s v).trail, C t) ∧
    match (m.run s v).result with
    | .ok a => Q a (m.run s v).store (m.run s v).supply
    | .error e => E e (m.run s v).store (m.run s v).supply

variable {C C' : σ → Prop} {Q Q' : α → σ → ν → Prop} {E E' : ε → σ → ν → Prop} {s : σ} {v : ν}

@[simp]
theorem wp_pure (a : α) : wp (pure a : Prog σ ν ε α) C Q E s v ↔ Q a s v := by
  simp [wp, run, pure]

@[simp]
theorem wp_raise (e : ε) : wp (raise e : Prog σ ν ε α) C Q E s v ↔ E e s v := by
  simp [wp, run, raise]

@[simp]
theorem wp_look (f : σ → α) : wp (look f : Prog σ ν ε α) C Q E s v ↔ Q (f s) s v := by
  simp [wp, run, look]

@[simp]
theorem wp_durably {Q : Unit → σ → ν → Prop} (f : σ → σ) :
    wp (durably f : Prog σ ν ε Unit) C Q E s v ↔ C (f s) ∧ Q () (f s) v := by
  simp [wp, run, durably]

@[simp]
theorem wp_draw (f : ν → α × ν) : wp (draw f : Prog σ ν ε α) C Q E s v ↔ Q (f v).1 s (f v).2 := by
  simp [wp, run, draw]

@[simp]
theorem wp_ofExcept (x : Except ε α) :
    wp (ofExcept x : Prog σ ν ε α) C Q E s v ↔
      (∀ a, x = .ok a → Q a s v) ∧ (∀ e, x = .error e → E e s v) := by
  rcases x with e | a
  · simp [ofExcept]
  · simp [ofExcept]

theorem run_seq (m : Prog σ ν ε α) (f : α → Prog σ ν ε β) :
    (m >>= f).run s v = match m.run s v with
      | ⟨.ok a, t, w, trail⟩ =>
        let o := (f a).run t w
        ⟨o.result, o.store, o.supply, trail ++ o.trail⟩
      | ⟨.error e, t, w, trail⟩ => ⟨.error e, t, w, trail⟩ := rfl

/-- **Sequencing.**  The second program's precondition is the first one's
postcondition; both trails meet the same `C`. -/
@[simp]
theorem wp_bind {Q : β → σ → ν → Prop} (m : Prog σ ν ε α) (f : α → Prog σ ν ε β) :
    wp (m >>= f) C Q E s v ↔ wp m C (fun a t w => wp (f a) C Q E t w) E s v := by
  unfold wp
  rw [run_seq]
  rcases m.run s v with ⟨_ | a, t, w, trail⟩
  · rfl
  · simp only [List.forall_mem_append, and_assoc]

@[simp]
theorem wp_map {Q : β → σ → ν → Prop} (f : α → β) (m : Prog σ ν ε α) :
    wp (f <$> m) C Q E s v ↔ wp m C (fun a t w => Q (f a) t w) E s v := by
  show wp (m >>= fun a => pure (f a)) C Q E s v ↔ _
  simp only [wp_bind, wp_pure]

@[simp]
theorem wp_require {Q : Unit → σ → ν → Prop} (b : Bool) (e : ε) :
    wp (require b e : Prog σ ν ε Unit) C Q E s v ↔
      (b = true → Q () s v) ∧ (b = false → E e s v) := by
  cases b <;> simp [require]

@[simp]
theorem wp_mapError (f : ε → ε) (m : Prog σ ν ε α) :
    wp (mapError f m) C Q E s v ↔ wp m C Q (fun e => E (f e)) s v := by
  unfold wp run mapError
  rcases (m s v).result with e | a <;> rfl

theorem wp_handle (f : ε → Except ε α) (m : Prog σ ν ε α) :
    wp (handle f m) C Q E s v ↔ wp m C Q (fun e t w => match f e with
        | .ok a => Q a t w
        | .error e => E e t w) s v := by
  unfold wp run handle
  rcases m s v with ⟨_ | _, t, w, _⟩
  · rfl
  · rfl

/-- **However the first program ends**, the second one runs. -/
theorem wp_finish (m : Prog σ ν ε α) (last : Prog σ ν ε Unit) :
    wp (finish m last) C Q E s v ↔
      wp m C (fun a t w => wp last C (fun _ => Q a) E t w)
        (fun e t w => wp last C (fun _ => E e) E t w) s v := by
  unfold wp run finish
  rcases m s v with ⟨_ | _, t, w, _⟩
  all_goals
    simp only [List.forall_mem_append, and_assoc]
    rcases last t w with ⟨_ | _, _, _, _⟩
    all_goals rfl

/-- Both branches of a conditional program. -/
theorem wp_ite (p : Prop) [Decidable p] (m₁ m₂ : Prog σ ν ε α) :
    wp (if p then m₁ else m₂) C Q E s v ↔
      (p → wp m₁ C Q E s v) ∧ (¬ p → wp m₂ C Q E s v) := by
  by_cases h : p <;> simp [h]

/-- **Consequence.** -/
theorem wp_mono {m : Prog σ ν ε α} (h : wp m C Q E s v) (hC : ∀ t, C t → C' t)
    (hQ : ∀ a t w, Q a t w → Q' a t w) (hE : ∀ e t w, E e t w → E' e t w) :
    wp m C' Q' E' s v := by
  obtain ⟨h₁, h₂⟩ := h
  refine ⟨fun t ht => hC t (h₁ t ht), ?_⟩
  rcases hr : (m.run s v).result with e | a
  · rw [hr] at h₂
    exact hE e _ _ h₂
  · rw [hr] at h₂
    exact hQ a _ _ h₂

/-- Consequence of the postcondition alone. -/
theorem wp_imp {m : Prog σ ν ε α} (h : wp m C Q' E s v) (hQ : ∀ a t w, Q' a t w → Q a t w) :
    wp m C Q E s v :=
  wp_mono h (fun _ h => h) hQ fun _ _ _ h => h

/-- The branch that the condition selects runs. -/
theorem wp_cases {p : Prop} [Decidable p] {m₁ m₂ : Prog σ ν ε α} (h₁ : p → wp m₁ C Q E s v)
    (h₂ : ¬ p → wp m₂ C Q E s v) : wp (if p then m₁ else m₂) C Q E s v :=
  (wp_ite p m₁ m₂).2 ⟨h₁, h₂⟩

/-- The first program meets what the second one needs. -/
theorem wp_then {m : Prog σ ν ε α} {f : α → Prog σ ν ε β} {Q : β → σ → ν → Prop}
    (h : wp m C Q' E s v) (hf : ∀ a t w, Q' a t w → wp (f a) C Q E t w) :
    wp (m >>= f) C Q E s v :=
  (wp_bind m f).2 (wp_imp h hf)

/-- The second program runs when the condition holds. -/
theorem wp_require_then {b : Bool} {e : ε} {f : Unit → Prog σ ν ε β} {Q : β → σ → ν → Prop}
    (h : b = true → wp (f ()) C Q E s v) (hE : b = false → E e s v) :
    wp (require b e >>= f) C Q E s v := by
  rw [wp_bind, wp_require]
  exact ⟨h, hE⟩

/-- The second program runs with the value, if there is one. -/
theorem wp_ofExcept_then {x : Except ε α} {f : α → Prog σ ν ε β} {Q : β → σ → ν → Prop}
    (h : ∀ a, x = .ok a → wp (f a) C Q E s v) (hE : ∀ e, x = .error e → E e s v) :
    wp (ofExcept x >>= f) C Q E s v := by
  rw [wp_bind, wp_ofExcept]
  exact ⟨h, hE⟩

theorem wp_trivial (m : Prog σ ν ε α) :
    wp m (fun _ => True) (fun _ _ _ => True) (fun _ _ _ => True) s v := by
  refine ⟨fun _ _ => trivial, ?_⟩
  rcases (m.run s v).result with e | a
  · trivial
  · trivial

/-- Two facts about one program hold together. -/
theorem wp_and {m : Prog σ ν ε α} (h : wp m C Q E s v) (h' : wp m C' Q' E' s v) :
    wp m (fun t => C t ∧ C' t) (fun a t w => Q a t w ∧ Q' a t w)
      (fun e t w => E e t w ∧ E' e t w) s v := by
  refine ⟨fun t ht => ⟨h.1 t ht, h'.1 t ht⟩, ?_⟩
  have h₂ := h.2
  have h₂' := h'.2
  rcases hr : (m.run s v).result with e | a
  all_goals
    rw [hr] at h₂ h₂'
    exact ⟨h₂, h₂'⟩

/-- A program that cannot raise returns. -/
theorem wp_ok {m : Prog σ ν ε α} (h : wp m C Q (fun _ _ _ => False) s v) :
    ∃ a, (m.run s v).result = .ok a := by
  have h₂ := h.2
  rcases hr : (m.run s v).result with e | a
  · rw [hr] at h₂
    exact h₂.elim
  · exact ⟨a, rfl⟩

theorem wp_result {m : Prog σ ν ε α} {a : α} (h : wp m C Q E s v)
    (ha : (m.run s v).result = .ok a) : Q a (m.run s v).store (m.run s v).supply := by
  have h₂ := h.2
  rwa [ha] at h₂

/-- A program whose first part returns runs its second part from there. -/
theorem run_bind {m : Prog σ ν ε α} {f : α → Prog σ ν ε β} {a : α}
    (ha : (m.run s v).result = .ok a) :
    ((m >>= f).run s v).result = ((f a).run (m.run s v).store (m.run s v).supply).result ∧
      ((m >>= f).run s v).store = ((f a).run (m.run s v).store (m.run s v).supply).store := by
  rw [run_seq]
  rcases hm : m.run s v with ⟨_ | b, t, w, trail⟩
  · rw [hm] at ha
    cases ha
  · rw [hm] at ha
    cases ha
    exact ⟨rfl, rfl⟩

/-- When two programs in turn return, the first one does. -/
theorem bind_ok {m : Prog σ ν ε α} {f : α → Prog σ ν ε β} {b : β}
    (hb : ((m >>= f).run s v).result = .ok b) : ∃ a, (m.run s v).result = .ok a := by
  have hwp : wp (m >>= f) (fun _ => True) (fun _ _ _ => ∃ a, (m.run s v).result = .ok a)
      (fun _ _ _ => True) s v := by
    rw [wp_bind]
    refine ⟨fun _ _ => trivial, ?_⟩
    rcases hm : (m.run s v).result with e | a
    · trivial
    · refine ⟨fun _ _ => trivial, ?_⟩
      rcases ((f a).run (m.run s v).store (m.run s v).supply).result with e | c
      · trivial
      · exact ⟨a, rfl⟩
  exact wp_result hwp hb

/-- What a program leaves when it runs to its end. -/
theorem wp_store {m : Prog σ ν ε α} {I : σ → Prop}
    (h : wp m C (fun _ t _ => I t) (fun _ t _ => I t) s v) : I (m.run s v).store := by
  have h₂ := h.2
  rcases hr : (m.run s v).result with e | a
  · rwa [hr] at h₂
  · rwa [hr] at h₂

/-- **Reading a weakest precondition back.**  What a program leaves, wherever it
stops, meets the condition of the place it stopped at. -/
theorem wp_halts {m : Prog σ ν ε α} {I : σ → Prop}
    (h : wp m I (fun _ t _ => I t) (fun _ t _ => I t) s v) (hs : I s) :
    ∀ t ∈ m.halts s v, I t := by
  intro t ht
  simp only [halts, List.cons_append, List.mem_cons, List.mem_append, List.not_mem_nil,
    or_false] at ht
  rcases ht with rfl | ht | rfl
  · exact hs
  · exact h.1 t ht
  · exact wp_store h

/-- The stores left by a process that stops before the middle stage of three, or after it has run
to its end. -/
def outside {γ : Type} (first : Prog σ ν ε α) (middle : α → Prog σ ν ε β)
    (last : α → Prog σ ν ε γ) (s : σ) (v : ν) : List σ :=
  first.halts s v ++ match first.run s v with
    | ⟨.error _, _, _, _⟩ => []
    | ⟨.ok a, t, w, _⟩ =>
      match (middle a).run t w with
      | ⟨.error _, _, _, _⟩ => []
      | ⟨.ok _, u, x, _⟩ => (last a).halts u x

/-- Three stages that return end outside the middle one. -/
theorem store_mem_outside {γ : Type} {first : Prog σ ν ε α} {middle : α → Prog σ ν ε β}
    {last : α → Prog σ ν ε γ} {c : γ}
    (h : ((first >>= fun a => middle a >>= fun _ => last a).run s v).result = .ok c) :
    ((first >>= fun a => middle a >>= fun _ => last a).run s v).store ∈
      outside first middle last s v := by
  obtain ⟨a, ha⟩ := bind_ok h
  obtain ⟨hres, hstore⟩ := run_bind (f := fun a => middle a >>= fun _ => last a) ha
  rw [hres] at h
  obtain ⟨b, hb⟩ := bind_ok h
  obtain ⟨-, hstore'⟩ := run_bind (f := fun _ => last a) hb
  rw [hstore, hstore']
  refine List.mem_append_right _ ?_
  rcases hrun : first.run s v with ⟨_ | _, t, w, _⟩
  · rw [hrun] at ha
    cases ha
  · rw [hrun] at ha hb
    cases ha
    rcases hrun' : (middle a).run t w with ⟨_ | _, u, x, _⟩
    · rw [hrun'] at hb
      cases hb
    · simp only [hrun']
      exact List.mem_append_right _ (.head _)

/-- What holds of the stores outside the middle stage; inside it, only its end matters. -/
theorem wp_outside {γ : Type} {I : σ → Prop} {first : Prog σ ν ε α} {middle : α → Prog σ ν ε β}
    {last : α → Prog σ ν ε γ} (hs : I s)
    (h : wp first I (fun a t w => I t ∧ wp (middle a) (fun _ => True)
      (fun _ u x => I u ∧ wp (last a) I (fun _ y _ => I y) (fun _ y _ => I y) u x)
      (fun _ _ _ => True) t w) (fun _ t _ => I t) s v) :
    ∀ t ∈ outside first middle last s v, I t := by
  intro t ht
  rcases List.mem_append.1 ht with ht | ht
  · refine wp_halts (wp_mono h (fun _ h => h) (fun _ _ _ h => h.1) fun _ _ _ h => h) hs t ht
  · have hfirst := h.2
    rcases hrun : first.run s v with ⟨_ | a, t', w, _⟩
    · simp only [hrun] at ht
      cases ht
    · simp only [hrun] at ht hfirst
      have hmid := hfirst.2.2
      rcases hrun' : (middle a).run t' w with ⟨_ | b, u, x, _⟩
      · simp only [hrun'] at ht
        cases ht
      · simp only [hrun'] at ht hmid
        exact wp_halts hmid.2 hmid.1 t ht

/-! ### Answers -/

/-- What a program answers: the value it returns or the error it raises. -/
def answer (m : Prog σ ν ε α) (s : σ) (v : ν) : Except ε α := (m.run s v).result

section

variable {s : σ} {v : ν} {m : Prog σ ν ε α} {a : α} {k : α → Prog σ ν ε β}

@[simp]
theorem answer_pure (a : α) : answer (pure a : Prog σ ν ε α) s v = .ok a := rfl

@[simp]
theorem answer_raise (e : ε) : answer (raise e : Prog σ ν ε α) s v = .error e := rfl

@[simp]
theorem answer_look (f : σ → α) (k : α → Prog σ ν ε β) :
    answer (look f >>= k) s v = answer (k (f s)) s v := rfl

@[simp]
theorem answer_require (b : Bool) (e : ε) (k : Unit → Prog σ ν ε β) :
    answer (require b e >>= k) s v = if b then answer (k ()) s v else .error e := by
  cases b <;> rfl

@[simp]
theorem answer_ofExcept_ok (a : α) (k : α → Prog σ ν ε β) :
    answer (ofExcept (.ok a) >>= k) s v = answer (k a) s v := rfl

@[simp]
theorem answer_ofExcept_error (e : ε) (k : α → Prog σ ν ε β) :
    answer (ofExcept (.error e) >>= k) s v = .error e := rfl

@[simp]
theorem answer_durably (f : σ → σ) (k : Unit → Prog σ ν ε β) :
    answer (durably f >>= k) s v = answer (k ()) (f s) v := rfl

/-- **After a program that has returned**, the rest answers from what it has left. -/
theorem answer_bind_ok (h : answer m s v = .ok a) :
    answer (m >>= k) s v = answer (k a) (m.run s v).store (m.run s v).supply :=
  (run_bind h).1

/-- A program that has raised an error goes no further. -/
theorem answer_bind_error {e : ε} (h : answer m s v = .error e) :
    answer (m >>= k) s v = .error e := by
  unfold answer run at *
  show (match m s v with
    | ⟨.ok a, t, w, trail⟩ =>
      (⟨(k a t w).result, (k a t w).store, (k a t w).supply, trail ++ (k a t w).trail⟩ :
        Outcome σ ν ε β)
    | ⟨.error e, t, w, trail⟩ => ⟨.error e, t, w, trail⟩).result = _
  rcases hm : m s v with ⟨_ | b, t, w, trail⟩
  · rw [hm] at h
    cases h
    rfl
  · rw [hm] at h
    cases h

/-- What a program has answered is its only result. -/
theorem wp_answer (h : answer m s v = .ok a) :
    wp m (fun _ => True) (fun b _ _ => b = a) (fun _ _ _ => False) s v := by
  unfold answer at h
  refine ⟨fun _ _ => trivial, ?_⟩
  rw [h]

end

/-! ### Loops over a list -/

@[simp]
theorem each_nil {γ : Type} (f : γ → Prog σ ν ε Unit) : each f [] = pure () := rfl

theorem each_cons {γ : Type} (f : γ → Prog σ ν ε Unit) (x : γ) (xs : List γ) :
    each f (x :: xs) = f x >>= fun _ => each f xs := rfl

/-- **Loop rule.**  The invariant `J` is indexed by the part of the list still to do. -/
theorem wp_each {γ : Type} {Q : Unit → σ → ν → Prop} (J : List γ → σ → ν → Prop)
    (f : γ → Prog σ ν ε Unit)
    (step : ∀ x xs t w, J (x :: xs) t w → wp (f x) C (fun _ => J xs) E t w)
    (last : ∀ t w, J [] t w → Q () t w) :
    ∀ (xs : List γ) (t : σ) (w : ν), J xs t w → wp (each f xs) C Q E t w
  | [], t, w, h => (wp_pure ()).2 (last t w h)
  | x :: xs, t, w, h => by
      rw [each_cons, wp_bind]
      exact wp_mono (step x xs t w h) (fun _ h => h)
        (fun _ t w h => wp_each J f step last xs t w h) (fun _ _ _ h => h)

@[simp]
theorem gather_nil {γ δ : Type} (f : γ → Prog σ ν ε (List δ)) : gather f [] = pure [] := rfl

theorem gather_cons {γ δ : Type} (f : γ → Prog σ ν ε (List δ)) (x : γ) (xs : List γ) :
    gather f (x :: xs) = f x >>= fun ys => gather f xs >>= fun zs => pure (ys ++ zs) := rfl

/-- **Collecting loop rule.**  The invariant `J` is indexed by the part of the list
still to do and by what has been collected. -/
theorem wp_gather {γ δ : Type} (J : List γ → List δ → σ → ν → Prop) (f : γ → Prog σ ν ε (List δ))
    (step : ∀ x xs acc t w, J (x :: xs) acc t w → wp (f x) C (fun ys => J xs (acc ++ ys)) E t w) :
    ∀ (xs : List γ) (acc : List δ) (t : σ) (w : ν), J xs acc t w →
      wp (gather f xs) C (fun ys => J [] (acc ++ ys)) E t w
  | [], acc, t, w, h => by
      rw [gather_nil, wp_pure, List.append_nil]
      exact h
  | x :: xs, acc, t, w, h => by
      simp only [gather_cons, wp_bind, wp_pure]
      refine wp_mono (step x xs acc t w h) (fun _ h => h) (fun ys t w h => ?_) (fun _ _ _ h => h)
      have hrest := wp_gather J f step xs (acc ++ ys) t w h
      simpa only [List.append_assoc] using hrest

/-! ### Frames -/

/-- Every store `m` leaves behind, wherever it stops, is `R`-related to its start. -/
def Within (R : σ → σ → Prop) (m : Prog σ ν ε α) : Prop :=
  ∀ s v, wp m (R s) (fun _ t _ => R s t) (fun _ t _ => R s t) s v

variable {R : σ → σ → Prop}

theorem within_pure (hR : ∀ s, R s s) (a : α) : Within R (pure a : Prog σ ν ε α) :=
  fun s _ => (wp_pure a).2 (hR s)

theorem within_raise (hR : ∀ s, R s s) (e : ε) : Within R (raise e : Prog σ ν ε α) :=
  fun s _ => (wp_raise e).2 (hR s)

theorem within_look (hR : ∀ s, R s s) (f : σ → α) : Within R (look f : Prog σ ν ε α) :=
  fun s _ => (wp_look f).2 (hR s)

theorem within_draw (hR : ∀ s, R s s) (f : ν → α × ν) : Within R (draw f : Prog σ ν ε α) :=
  fun s _ => (wp_draw f).2 (hR s)

theorem within_durably {f : σ → σ} (hf : ∀ s, R s (f s)) : Within R (durably f : Prog σ ν ε Unit) :=
  fun s _ => (wp_durably f).2 ⟨hf s, hf s⟩

theorem within_ofExcept (hR : ∀ s, R s s) (x : Except ε α) :
    Within R (ofExcept x : Prog σ ν ε α) := by
  rcases x with e | a
  · exact within_raise hR e
  · exact within_pure hR a

theorem within_require (hR : ∀ s, R s s) (b : Bool) (e : ε) :
    Within R (require b e : Prog σ ν ε Unit) := by
  rcases b with _ | _
  · exact within_raise hR e
  · exact within_pure hR ()

theorem within_mapError {m : Prog σ ν ε α} (f : ε → ε) (h : Within R m) : Within R (mapError f m) :=
  fun s v => (wp_mapError f m).2 (h s v)

theorem within_ite {p : Prop} [Decidable p] {m₁ m₂ : Prog σ ν ε α} (h₁ : Within R m₁)
    (h₂ : Within R m₂) : Within R (if p then m₁ else m₂) := by
  by_cases h : p
  · rwa [if_pos h]
  · rwa [if_neg h]

/-- Frames compose along a transitive relation. -/
theorem within_bind (hR : ∀ s t u, R s t → R t u → R s u) {m : Prog σ ν ε α}
    {f : α → Prog σ ν ε β} (hm : Within R m) (hf : ∀ a, Within R (f a)) :
    Within R (m >>= f) := by
  intro s v
  rw [wp_bind]
  exact wp_mono (hm s v) (fun _ h => h)
    (fun a t w h => wp_mono (hf a t w) (fun u hu => hR s t u h hu)
      (fun _ u _ hu => hR s t u h hu) (fun _ u _ hu => hR s t u h hu))
    (fun _ _ _ h => h)

theorem within_each {γ : Type} (hrefl : ∀ s, R s s) (htrans : ∀ s t u, R s t → R t u → R s u)
    {f : γ → Prog σ ν ε Unit} :
    ∀ xs : List γ, (∀ x ∈ xs, Within R (f x)) → Within R (each f xs)
  | [], _ => within_pure hrefl ()
  | x :: xs, h => by
      rw [each_cons]
      exact within_bind htrans (h x (.head _)) fun _ =>
        within_each hrefl htrans xs fun y hy => h y (.tail _ hy)

theorem within_gather {γ δ : Type} (hrefl : ∀ s, R s s)
    (htrans : ∀ s t u, R s t → R t u → R s u) {f : γ → Prog σ ν ε (List δ)} :
    ∀ xs : List γ, (∀ x ∈ xs, Within R (f x)) → Within R (gather f xs)
  | [], _ => within_pure hrefl []
  | x :: xs, h => by
      rw [gather_cons]
      refine within_bind htrans (h x (.head _)) fun ys => ?_
      refine within_bind htrans ?_ fun zs => within_pure hrefl _
      exact within_gather hrefl htrans xs fun y hy => h y (.tail _ hy)

/-- A frame used inside a weakest precondition. -/
theorem Within.wp {m : Prog σ ν ε α} (h : Within R m) (hC : ∀ t, R s t → C t)
    (hQ : ∀ a t w, R s t → Q a t w) (hE : ∀ e t w, R s t → E e t w) : wp m C Q E s v :=
  wp_mono (h s v) hC hQ hE

/-- Every store that `m` leaves behind, wherever it stops, meets `I`. -/
def Leaves (I : σ → Prop) (m : Prog σ ν ε α) (s : σ) (v : ν) : Prop :=
  wp m I (fun _ t _ => I t) (fun _ t _ => I t) s v

/-- A program that writes nothing. -/
structure ReadOnly (m : Prog σ ν ε α) : Prop where
  silent : ∀ s v, wp m (fun _ => False) (fun _ t _ => t = s) (fun _ t _ => t = s) s v

namespace ReadOnly

theorem pure (a : α) : ReadOnly (Pure.pure a : Prog σ ν ε α) := ⟨fun _ _ => (wp_pure a).2 rfl⟩

theorem raise (e : ε) : ReadOnly (Prog.raise e : Prog σ ν ε α) := ⟨fun _ _ => (wp_raise e).2 rfl⟩

theorem look (f : σ → α) : ReadOnly (Prog.look f : Prog σ ν ε α) := ⟨fun _ _ => (wp_look f).2 rfl⟩

theorem draw (f : ν → α × ν) : ReadOnly (Prog.draw f : Prog σ ν ε α) :=
  ⟨fun _ _ => (wp_draw f).2 rfl⟩

theorem ofExcept (x : Except ε α) : ReadOnly (Prog.ofExcept x : Prog σ ν ε α) :=
  ⟨fun _ _ => (wp_ofExcept x).2 ⟨fun _ _ => rfl, fun _ _ => rfl⟩⟩

theorem require (b : Bool) (e : ε) : ReadOnly (Prog.require b e : Prog σ ν ε Unit) :=
  ⟨fun _ _ => (wp_require b e).2 ⟨fun _ => rfl, fun _ => rfl⟩⟩

theorem mapError {m : Prog σ ν ε α} (f : ε → ε) (h : ReadOnly m) : ReadOnly (Prog.mapError f m) :=
  ⟨fun s v => (wp_mapError f m).2 (h.silent s v)⟩

theorem ite {p : Prop} [Decidable p] {m₁ m₂ : Prog σ ν ε α} (h₁ : ReadOnly m₁)
    (h₂ : ReadOnly m₂) : ReadOnly (if p then m₁ else m₂) := by
  by_cases h : p
  · rwa [if_pos h]
  · rwa [if_neg h]

/-- A program that writes nothing, inside a weakest precondition. -/
theorem wp {m : Prog σ ν ε α} (h : ReadOnly m) (hQ : ∀ a w, Q a s w) (hE : ∀ e w, E e s w) :
    Prog.wp m C Q E s v :=
  wp_mono (h.silent s v) (fun _ => False.elim) (fun a _ w ht => ht ▸ hQ a w)
    fun e _ w ht => ht ▸ hE e w

theorem bind {m : Prog σ ν ε α} {f : α → Prog σ ν ε β} (hm : ReadOnly m)
    (hf : ∀ a, ReadOnly (f a)) : ReadOnly (m >>= f) := by
  refine ⟨fun s v => ?_⟩
  rw [wp_bind]
  exact hm.wp (fun a w => (hf a).silent s w) fun _ _ => rfl

theorem guard {b : Bool} {e : ε} {m : Prog σ ν ε α} (hm : ReadOnly m) :
    ReadOnly (Prog.require b e >>= fun _ => m) := .bind (.require b e) fun _ => hm

theorem each {γ : Type} {f : γ → Prog σ ν ε Unit} :
    ∀ xs : List γ, (∀ x ∈ xs, ReadOnly (f x)) → ReadOnly (Prog.each f xs)
  | [], _ => pure ()
  | x :: xs, h => (h x (.head _)).bind fun _ =>
    each xs fun y hy => h y (.tail _ hy)

theorem gather {γ δ : Type} {f : γ → Prog σ ν ε (List δ)} :
    ∀ xs : List γ, (∀ x ∈ xs, ReadOnly (f x)) → ReadOnly (Prog.gather f xs)
  | [], _ => pure []
  | x :: xs, h => (h x (.head _)).bind fun _ =>
    (gather xs fun y hy => h y (.tail _ hy)).bind fun _ => pure _

end ReadOnly

end Prog

end Durable
