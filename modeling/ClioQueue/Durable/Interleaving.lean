/-
# Programs that interleave over a shared store

A `Proc` acts on a store that it shares with others: an action is atomic, and between two actions
of one program the others act.  `Interleaving.Step` is one step of a world in which any number of
programs run.  What a program keeps is shown one action at a time (`Proc.Keeps`): from any store
that the invariant `I` holds of and that has grown (`G`) since the program's last action, an action
keeps `I` and lets the store grow.  Then so does every run of the world, whatever the order of the
actions (`Interleaving.Sound.run`).
-/

import Mathlib.Logic.Relation
import Mathlib.Order.Basic

namespace Durable

variable {Op : Type} {Ans : Op → Type} {ε α β σ : Type}

/-- A program that acts on a shared store: it is done, or acts and goes on with the answer. -/
inductive Proc (Op : Type) (Ans : Op → Type) (ε α : Type) where
  | done (result : Except ε α)
  | act (op : Op) (next : Ans op → Proc Op Ans ε α)

namespace Proc

/-- Go on with the result; an error ends the program. -/
def bind : Proc Op Ans ε α → (α → Proc Op Ans ε β) → Proc Op Ans ε β
  | .done (.ok a), f => f a
  | .done (.error e), _ => .done (.error e)
  | .act op next, f => .act op fun x => (next x).bind f

instance : Monad (Proc Op Ans ε) where
  pure a := .done (.ok a)
  bind := bind

/-- One action. -/
def perform (op : Op) : Proc Op Ans ε (Ans op) := .act op fun x => .done (.ok x)

/-- End with an error. -/
def raise (e : ε) : Proc Op Ans ε α := .done (.error e)

/-- Go on with the value of an `Except`, or raise its error. -/
def ofExcept (x : Except ε α) : Proc Op Ans ε α := .done x

/-- The result, an error too. -/
def attempt : Proc Op Ans ε α → Proc Op Ans ε (Except ε α)
  | .done result => .done (.ok result)
  | .act op next => .act op fun x => (next x).attempt

/-- What is asked of a result: `P` of a value, and of an error what `Q` says. -/
def OnResult (P : α → σ → Prop) (Q : Except ε β → σ → Prop) : Except ε α → σ → Prop
  | .ok a, s => P a s
  | .error e, s => Q (.error e) s

/-! ### What a program keeps -/

/-- How a program's actions are answered, and what they leave. -/
abbrev Handler (Op : Type) (Ans : Op → Type) (σ : Type) : Type :=
  (op : Op) → σ → Ans op → σ → Prop

variable (handler : Handler Op Ans σ) (I : σ → Prop) (G : σ → σ → Prop)

/-- Whatever the others do, each action keeps `I` and lets the store grow, and the result meets `Q`
with the store at the program's last action. -/
def Keeps (Q : Except ε α → σ → Prop) : Proc Op Ans ε α → σ → Prop
  | .done result, s => Q result s
  | .act op next, s => ∀ t, I t → G s t → ∀ x t', handler op t x t' →
    (I t' ∧ G t t') ∧ Keeps Q (next x) t'

variable {handler I G} {Q R : Except ε α → σ → Prop} {s t : σ}

theorem Keeps.imp (h : ∀ result s, Q result s → R result s) :
    ∀ {m : Proc Op Ans ε α} {s : σ}, m.Keeps handler I G Q s → m.Keeps handler I G R s
  | .done result, s, hm => h result s hm
  | .act _ next, _, hm => fun t hI hG x t' hx =>
    ⟨(hm t hI hG x t' hx).1, Keeps.imp h (m := next x) (hm t hI hG x t' hx).2⟩

theorem Keeps.later (htrans : ∀ a b c, G a b → G b c → G a c)
    (hstable : ∀ result a b, Q result a → G a b → Q result b) {m : Proc Op Ans ε α}
    (hm : m.Keeps handler I G Q s) (h : G s t) : m.Keeps handler I G Q t := by
  cases m with
  | done result => exact hstable result s t hm h
  | act => exact fun u hI hG => hm u hI (htrans s t u h hG)

/-- **Sequencing.** -/
theorem Keeps.bind {Q : Except ε β → σ → Prop} {f : α → Proc Op Ans ε β} :
    ∀ {m : Proc Op Ans ε α} {s : σ},
      m.Keeps handler I G (OnResult (fun a t => (f a).Keeps handler I G Q t) Q) s →
      (m >>= f).Keeps handler I G Q s
  | .done (.ok _), _, hm => hm
  | .done (.error _), _, hm => hm
  | .act _ next, _, hm => fun t hI hG x t' hx =>
    ⟨(hm t hI hG x t' hx).1, Keeps.bind (m := next x) (hm t hI hG x t' hx).2⟩

/-- **The rule of an attempt.** -/
theorem Keeps.attempt {Q : Except ε (Except ε α) → σ → Prop} :
    ∀ {m : Proc Op Ans ε α} {s : σ}, m.Keeps handler I G (fun result t => Q (.ok result) t) s →
      m.attempt.Keeps handler I G Q s
  | .done _, _, hm => hm
  | .act _ next, _, hm => fun t hI hG x t' hx =>
    ⟨(hm t hI hG x t' hx).1, Keeps.attempt (m := next x) (hm t hI hG x t' hx).2⟩

/-- **One action**, after which the program goes on. -/
theorem keeps_perform {op : Op} {f : Ans op → Proc Op Ans ε β} {Q : Except ε β → σ → Prop}
    (h : ∀ t, I t → G s t → ∀ x t', handler op t x t' →
      (I t' ∧ G t t') ∧ (f x).Keeps handler I G Q t') :
    (perform op >>= f).Keeps handler I G Q s := h

/-! ### One program alone -/

/-- A program that runs alone ends with a result, and leaves a store. -/
inductive Ends (handler : Handler Op Ans σ) :
    Proc Op Ans ε α → σ → Except ε α → σ → Prop
  | done (result : Except ε α) (s : σ) : Ends handler (.done result) s result s
  | act {op : Op} {next : Ans op → Proc Op Ans ε α} {s t u : σ} {x : Ans op} {result : Except ε α}
      (hx : handler op s x t) (hnext : Ends handler (next x) t result u) :
      Ends handler (.act op next) s result u

end Proc

namespace Proc

variable {handler : Handler Op Ans σ} {s u : σ}
  {r x : Except ε α} {op : Op} {m : Proc Op Ans ε α} {a : α} {f : α → Proc Op Ans ε β}

theorem ends_done {result : Except ε α} :
    Ends handler (.done result) s r u ↔ r = result ∧ u = s := by
  constructor
  · intro h
    cases h
    exact ⟨rfl, rfl⟩
  · rintro ⟨rfl, rfl⟩
    exact .done _ _

theorem ends_act {next : Ans op → Proc Op Ans ε α} :
    Ends handler (.act op next) s r u ↔ ∃ x t, handler op s x t ∧ Ends handler (next x) t r u := by
  constructor
  · intro h
    cases h with
    | act hx hnext => exact ⟨_, _, hx, hnext⟩
  · rintro ⟨x, t, hx, hnext⟩
    exact .act hx hnext

@[simp]
theorem ends_pure : Ends handler (pure a) s r u ↔ r = .ok a ∧ u = s := ends_done

@[simp]
theorem ends_ofExcept : Ends handler (ofExcept x) s r u ↔ r = x ∧ u = s := ends_done

/-- **Sequencing**: the first program ends with an error, or the second one goes on. -/
theorem ends_bind {r : Except ε β} :
    Ends handler (m >>= f) s r u ↔
      (∃ a t, Ends handler m s (.ok a) t ∧ Ends handler (f a) t r u) ∨
      (∃ e, r = .error e ∧ Ends handler m s (.error e) u) := by
  induction m generalizing s with
  | done result =>
    rcases result with e | a
    · have hbind : (done (.error e) : Proc Op Ans ε α) >>= f = done (.error e) := rfl
      simp only [hbind, ends_done, Except.error.injEq, reduceCtorEq, false_and, exists_false,
        false_or]
      exact ⟨fun h => ⟨e, h.1, rfl, h.2⟩, fun ⟨_, hr, he, hu⟩ => ⟨he ▸ hr, hu⟩⟩
    · have hbind : (done (.ok a) : Proc Op Ans ε α) >>= f = f a := rfl
      simp only [hbind, ends_done, Except.ok.injEq, reduceCtorEq, false_and, and_false,
        exists_false, or_false]
      exact ⟨fun h => ⟨a, s, ⟨rfl, rfl⟩, h⟩, fun ⟨_, _, ⟨ha, ht⟩, h⟩ => ha ▸ ht ▸ h⟩
  | act op next ih =>
    have hbind : (act op next : Proc Op Ans ε α) >>= f = act op fun x => next x >>= f := rfl
    simp only [hbind, ends_act, ih]
    constructor
    · rintro ⟨x, t, hx, ⟨a, t', hm, hf⟩ | ⟨e, hr, hm⟩⟩
      · exact Or.inl ⟨a, t', ⟨x, t, hx, hm⟩, hf⟩
      · exact Or.inr ⟨e, hr, x, t, hx, hm⟩
    · rintro (⟨a, t', ⟨x, t, hx, hm⟩, hf⟩ | ⟨e, hr, x, t, hx, hm⟩)
      · exact ⟨x, t, hx, Or.inl ⟨a, t', hm, hf⟩⟩
      · exact ⟨x, t, hx, Or.inr ⟨e, hr, hm⟩⟩

end Proc

/-! ### The world -/

namespace Interleaving

variable (Op Ans ε α σ)

/-- A program that runs: the store when it began, and how many results there were then. -/
structure Client where
  begun : σ
  seen : Nat
  proc : Proc Op Ans ε α

/-- A result that a program ended with. -/
structure Returned where
  begun : σ
  seen : Nat
  result : Except ε α

/-- The store, the programs that run, and the results in the order they were returned. -/
structure World where
  store : σ
  running : List (Client Op Ans ε α σ)
  returned : List (Returned ε α σ)

variable {Op Ans ε α σ} (handler : Proc.Handler Op Ans σ) (starts : Proc Op Ans ε α → Prop)

/-- One step: a program begins, acts, or returns. -/
inductive Step : World Op Ans ε α σ → World Op Ans ε α σ → Prop
  | begins {w : World Op Ans ε α σ} {m : Proc Op Ans ε α} (hm : starts m) :
      Step w { w with running := ⟨w.store, w.returned.length, m⟩ :: w.running }
  | acts {s s' : σ} {before after : List (Client Op Ans ε α σ)} {returned} {begun : σ} {seen : Nat}
      {op : Op} {next : Ans op → Proc Op Ans ε α} {x : Ans op} (hx : handler op s x s') :
      Step ⟨s, before ++ ⟨begun, seen, .act op next⟩ :: after, returned⟩
        ⟨s', before ++ ⟨begun, seen, next x⟩ :: after, returned⟩
  | returns {s : σ} {before after : List (Client Op Ans ε α σ)} {returned} {begun : σ} {seen : Nat}
      {result : Except ε α} :
      Step ⟨s, before ++ ⟨begun, seen, .done result⟩ :: after, returned⟩
        ⟨s, before ++ after, returned ++ [⟨begun, seen, result⟩]⟩

/-- A world with a store in which nothing runs yet. -/
def fresh (s : σ) : World Op Ans ε α σ := ⟨s, [], []⟩

/-- What may run from a store. -/
def Reachable (s : σ) (w : World Op Ans ε α σ) : Prop :=
  Relation.ReflTransGen (Step handler starts) (fresh s) w

variable (I : σ → Prop) (G : σ → σ → Prop) (P : σ → Except ε α → σ → Prop)

/-- What holds of every world: the invariant of the store; what runs keeps it; what was returned
meets `P`, and so does what had been returned when a program began, with the store of that time. -/
structure Sound (w : World Op Ans ε α σ) : Prop where
  store : I w.store
  running : ∀ c ∈ w.running, c.proc.Keeps handler I G (P c.begun) w.store
  seen : ∀ c ∈ w.running, ∀ r ∈ w.returned.take c.seen, P r.begun r.result c.begun
  returned : ∀ r ∈ w.returned, P r.begun r.result w.store
  returnedSeen : ∀ r ∈ w.returned, ∀ r' ∈ w.returned.take r.seen, P r'.begun r'.result r.begun
  bounded : (∀ c ∈ w.running, c.seen ≤ w.returned.length) ∧
    ∀ r ∈ w.returned, r.seen ≤ w.returned.length

/-- What the rules need of the growth, of `P`, and of the programs. -/
structure Rules : Prop where
  refl : ∀ s, G s s
  trans : ∀ a b c, G a b → G b c → G a c
  stable : ∀ begun result a b, P begun result a → G a b → P begun result b
  starts : ∀ m, starts m → ∀ s, I s → m.Keeps handler I G (P s) s

variable {handler starts I G P} {w w' : World Op Ans ε α σ}
  {result : Except ε α} {running : List (Client Op Ans ε α σ)}
  {returned : List (Returned ε α σ)} {seen : Nat} {m : Proc Op Ans ε α} {begun s s' : σ}

theorem run_acting {t : σ} (h : Proc.Ends handler m t result s') :
    Relation.ReflTransGen (Step handler starts) ⟨t, ⟨begun, seen, m⟩ :: running, returned⟩
      ⟨s', ⟨begun, seen, .done result⟩ :: running, returned⟩ := by
  induction h with
  | done => exact Relation.ReflTransGen.refl
  | @act op next s t u x result hx _ ih =>
    have hstep : Step handler starts ⟨s, [] ++ ⟨begun, seen, .act op next⟩ :: running, returned⟩
        ⟨t, [] ++ ⟨begun, seen, next x⟩ :: running, returned⟩ := Step.acts hx
    exact (Relation.ReflTransGen.single hstep).trans ih

/-- A program that runs alone, and has not yet returned. -/
theorem run_alone (hm : starts m) (h : Proc.Ends handler m s result s') :
    Relation.ReflTransGen (Step handler starts) ⟨s, running, returned⟩
      ⟨s', ⟨s, returned.length, .done result⟩ :: running, returned⟩ :=
  (Relation.ReflTransGen.single (Step.begins hm)).trans (run_acting h)

theorem run_return :
    Relation.ReflTransGen (Step handler starts)
      ⟨s, ⟨begun, seen, .done result⟩ :: running, returned⟩
      ⟨s, running, returned ++ [⟨begun, seen, result⟩]⟩ := by
  have hstep : Step handler starts ⟨s, [] ++ ⟨begun, seen, .done result⟩ :: running, returned⟩
      ⟨s, [] ++ running, returned ++ [⟨begun, seen, result⟩]⟩ := Step.returns
  exact Relation.ReflTransGen.single hstep

theorem sound_fresh (h : I s) : Sound handler I G P (fresh s : World Op Ans ε α σ) where
  store := h
  running := nofun
  seen := nofun
  returned := nofun
  returnedSeen := nofun
  bounded := ⟨nofun, nofun⟩

/-- What is in a list around one of its items. -/
theorem mem_around {γ : Type} {before after : List γ} {c x : γ} :
    c ∈ before ++ x :: after ↔ c = x ∨ c ∈ before ++ after := by
  simp only [List.mem_append, List.mem_cons]
  exact or_left_comm

/-- **One step keeps the world sound, and lets the store grow.** -/
theorem Sound.step (rules : Rules handler starts I G P) (h : Sound handler I G P w)
    (hstep : Step handler starts w w') : Sound handler I G P w' ∧ G w.store w'.store := by
  cases hstep with
  | begins hm =>
    refine ⟨⟨h.store, ?_, ?_, h.returned, h.returnedSeen, ?_, h.bounded.2⟩, rules.refl _⟩
    · intro c hc
      rcases List.mem_cons.1 hc with rfl | hc
      · exact rules.starts _ hm _ h.store
      · exact h.running c hc
    · intro c hc r hr
      rcases List.mem_cons.1 hc with rfl | hc
      · exact h.returned r (List.mem_of_mem_take hr)
      · exact h.seen c hc r hr
    · intro c hc
      rcases List.mem_cons.1 hc with rfl | hc
      · exact Nat.le_refl _
      · exact h.bounded.1 c hc
  | @acts s s' before after returned begun seen op next x hx =>
    have hself : (⟨begun, seen, .act op next⟩ : Client Op Ans ε α σ) ∈
        before ++ ⟨begun, seen, .act op next⟩ :: after := mem_around.2 (Or.inl rfl)
    have hother : ∀ c ∈ before ++ after, c ∈ before ++ ⟨begun, seen, .act op next⟩ :: after :=
      fun c hc => mem_around.2 (Or.inr hc)
    obtain ⟨⟨hI, hG⟩, hnext⟩ := h.running _ hself s h.store (rules.refl s) x s' hx
    refine ⟨⟨hI, ?_, ?_, fun r hr => rules.stable _ _ _ _ (h.returned r hr) hG,
      h.returnedSeen, ⟨?_, h.bounded.2⟩⟩, hG⟩
    · intro c hc
      rcases mem_around.1 hc with rfl | hc
      · exact hnext
      · exact (h.running c (hother c hc)).later rules.trans (rules.stable _) hG
    · intro c hc
      rcases mem_around.1 hc with rfl | hc
      · exact h.seen ⟨begun, seen, .act op next⟩ hself
      · exact h.seen c (hother c hc)
    · intro c hc
      rcases mem_around.1 hc with rfl | hc
      · exact h.bounded.1 ⟨begun, seen, .act op next⟩ hself
      · exact h.bounded.1 c (hother c hc)
  | @returns s before after returned begun seen result =>
    have hother : ∀ c ∈ before ++ after, c ∈ before ++ ⟨begun, seen, .done result⟩ :: after :=
      fun c hc => mem_around.2 (Or.inr hc)
    have hself : (⟨begun, seen, .done result⟩ : Client Op Ans ε α σ) ∈
        before ++ ⟨begun, seen, .done result⟩ :: after := mem_around.2 (Or.inl rfl)
    have htake : ∀ n ≤ returned.length,
        (returned ++ [(⟨begun, seen, result⟩ : Returned ε α σ)]).take n =
        returned.take n := fun n hn => List.take_append_of_le_length hn
    have hlonger : ∀ n ≤ returned.length,
        n ≤ (returned ++ [(⟨begun, seen, result⟩ : Returned ε α σ)]).length := fun n hn =>
      Nat.le_trans hn (by rw [List.length_append]; exact Nat.le_add_right _ _)
    refine ⟨⟨h.store, fun c hc => h.running c (hother c hc), ?_, ?_, ?_, ?_, ?_⟩, rules.refl _⟩
    · intro c hc r hr
      rw [htake _ (h.bounded.1 c (hother c hc))] at hr
      exact h.seen c (hother c hc) r hr
    · intro r hr
      rcases List.mem_append.1 hr with hr | hr
      · exact h.returned r hr
      · cases List.mem_singleton.1 hr
        exact h.running _ hself
    · intro r hr r' hr'
      rcases List.mem_append.1 hr with hr | hr
      · rw [htake _ (h.bounded.2 r hr)] at hr'
        exact h.returnedSeen r hr r' hr'
      · cases List.mem_singleton.1 hr
        rw [htake _ (h.bounded.1 _ hself)] at hr'
        exact h.seen _ hself r' hr'
    · exact fun c hc => hlonger _ (h.bounded.1 c (hother c hc))
    · intro r hr
      rcases List.mem_append.1 hr with hr | hr
      · exact hlonger _ (h.bounded.2 r hr)
      · cases List.mem_singleton.1 hr
        exact hlonger _ (h.bounded.1 _ hself)

/-- **And so does every run.** -/
theorem Sound.run (rules : Rules handler starts I G P) (h : Sound handler I G P w)
    (hrun : Relation.ReflTransGen (Step handler starts) w w') :
    Sound handler I G P w' ∧ G w.store w'.store := by
  induction hrun with
  | refl => exact ⟨h, rules.refl _⟩
  | tail _ hstep ih =>
    obtain ⟨hsound, hgrowth⟩ := ih.1.step rules hstep
    exact ⟨hsound, rules.trans _ _ _ ih.2 hgrowth⟩

end Interleaving

end Durable
