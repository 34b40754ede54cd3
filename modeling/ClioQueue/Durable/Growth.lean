/-
# Programs along which a store grows

An invariant says what holds of every store that a program leaves behind; a growth
says how any later one of them extends any earlier one.  `Prog.Grows I R m s v` is
both along one execution, at every durable write of it, and `Prog.Maintains I R m`
is the same from every store that meets the invariant.  Both compose when `R` is
reflexive and transitive.
-/

import ClioQueue.Durable.Files

namespace Durable

namespace Prog

variable {σ ν ε α β : Type} {I : σ → Prop} {R : σ → σ → Prop} {s : σ} {v : ν}
  {m : Prog σ ν ε α} {f : α → Prog σ ν ε β}

/-- Every store left by one execution meets `I`, and extends those before it. -/
def Grows (I : σ → Prop) (R : σ → σ → Prop) (m : Prog σ ν ε α) (s : σ) (v : ν) : Prop :=
  (∀ t ∈ m.halts s v, I t) ∧ (m.halts s v).Pairwise R

/-- `I` is an invariant of the program, and the store grows along it. -/
def Maintains (I : σ → Prop) (R : σ → σ → Prop) (m : Prog σ ν ε α) : Prop :=
  ∀ s v, I s → Grows I R m s v

theorem Grows.store (h : Grows I R m s v) : I (m.run s v).store ∧ R s (m.run s v).store :=
  ⟨h.1 _ (List.mem_append_right _ (.head _)),
    List.rel_of_pairwise_cons h.2 (List.mem_append_right _ (.head _))⟩

theorem Grows.halts (hR : ∀ s, R s s) (h : Grows I R m s v) : ∀ t ∈ m.halts s v, I t ∧ R s t := by
  intro t ht
  refine ⟨h.1 t ht, ?_⟩
  rcases List.mem_cons.1 ht with rfl | ht
  · exact hR t
  · exact List.rel_of_pairwise_cons h.2 ht

/-! ### Rules -/

theorem ReadOnly.grows (hm : m.ReadOnly) (hR : ∀ s, R s s) (hs : I s) : Grows I R m s v := by
  obtain ⟨htrail, hres⟩ := hm.silent s v
  have hstore : (m.run s v).store = s := by
    rcases hr : (m.run s v).result with e | a
    all_goals rwa [hr] at hres
  have hnil : (m.run s v).trail = [] := List.eq_nil_iff_forall_not_mem.2 htrail
  unfold Grows Prog.halts
  rw [hnil, hstore]
  exact ⟨by simp [hs], by simp [hR]⟩

theorem grows_durably {f : σ → σ} (hR : ∀ s, R s s) (hs : I s) (hf : I (f s)) (hstep : R s (f s)) :
    Grows I R (durably f : Prog σ ν ε Unit) s v := by
  have hhalts : halts (durably f : Prog σ ν ε Unit) s v = [s, f s, f s] := rfl
  unfold Grows
  rw [hhalts]
  exact ⟨by simp [hs, hf], by simp [hR, hstep]⟩

theorem run_bind_outcome (m : Prog σ ν ε α) (f : α → Prog σ ν ε β) :
    (m >>= f : Prog σ ν ε β).run s v = match m.run s v with
      | ⟨.ok a, t, w, trail⟩ =>
        let o := (f a).run t w
        ⟨o.result, o.store, o.supply, trail ++ o.trail⟩
      | ⟨.error e, t, w, trail⟩ => ⟨.error e, t, w, trail⟩ := rfl

/-- **Two programs in turn.**  The second one is only started where the first returns. -/
theorem Grows.bind (htrans : ∀ s t u, R s t → R t u → R s u) (hm : Grows I R m s v)
    (hf : ∀ a, (m.run s v).result = .ok a → Grows I R (f a) (m.run s v).store (m.run s v).supply) :
    Grows I R (m >>= f) s v := by
  unfold Grows Prog.halts at hm hf ⊢
  rw [run_bind_outcome]
  generalize m.run s v = outcome at hm hf ⊢
  rcases outcome with ⟨_ | a, t, w, trail⟩
  · exact hm
  · obtain ⟨hI, hR⟩ := hm
    obtain ⟨hI', hR'⟩ := hf a rfl
    simp only [List.cons_append, List.mem_cons, List.mem_append, List.not_mem_nil, or_false,
      List.pairwise_cons, List.pairwise_append] at hI hR hI' hR' ⊢
    obtain ⟨hstart, htrail, -, hend⟩ := hR
    obtain ⟨hstart', htrail', -, hend'⟩ := hR'
    have hlate : ∀ x, x = s ∨ x ∈ trail → R x t := by
      rintro x (rfl | hx)
      · exact hstart t (.inr rfl)
      · exact hend x hx t rfl
    refine ⟨?_, ?_, ?_, ⟨fun _ h => h.elim, .nil⟩, ?_⟩
    · rintro x (rfl | (hx | hx) | rfl)
      · exact hI x (.inl rfl)
      · exact hI x (.inr (.inl hx))
      · exact hI' x (.inr (.inl hx))
      · exact hI' _ (.inr (.inr rfl))
    · rintro x ((hx | hx) | rfl)
      · exact hstart x (.inl hx)
      · exact htrans _ _ _ (hlate s (.inl rfl)) (hstart' x (.inl hx))
      · exact htrans _ _ _ (hlate s (.inl rfl)) (hstart' _ (.inr rfl))
    · refine ⟨htrail, htrail', fun x hx y hy => ?_⟩
      exact htrans _ _ _ (hlate x (.inr hx)) (hstart' y (.inl hy))
    · rintro x (hx | hx) y rfl
      · exact htrans _ _ _ (hlate x (.inr hx)) (hstart' _ (.inr rfl))
      · exact hend' x hx _ rfl

/-- **Two programs in turn**, with what the first one establishes. -/
theorem Grows.bind_wp (htrans : ∀ s t u, R s t → R t u → R s u) (hm : Grows I R m s v)
    (hf : Prog.wp m (fun _ => True) (fun a t w => Grows I R (f a) t w) (fun _ _ _ => True) s v) :
    Grows I R (m >>= f) s v :=
  hm.bind htrans fun _ ha => wp_result hf ha

section Maintains

variable (hrefl : ∀ s, R s s) (htrans : ∀ s t u, R s t → R t u → R s u)

include hrefl in
theorem ReadOnly.maintains {m : Prog σ ν ε α} (hm : m.ReadOnly) : Maintains I R m :=
  fun _ _ hs => hm.grows hrefl hs

include hrefl in
theorem maintains_durably {f : σ → σ} (hf : ∀ s, I s → I (f s) ∧ R s (f s)) :
    Maintains I R (durably f : Prog σ ν ε Unit) :=
  fun s _ hs => grows_durably hrefl hs (hf s hs).1 (hf s hs).2

include htrans in
theorem Maintains.bind {m : Prog σ ν ε α} {f : α → Prog σ ν ε β} (hm : Maintains I R m)
    (hf : ∀ a, Maintains I R (f a)) : Maintains I R (m >>= f) :=
  fun s v hs => (hm s v hs).bind htrans fun a _ => hf a _ _ (hm s v hs).store.1

theorem Maintains.ite {p : Prop} [Decidable p] {m₁ m₂ : Prog σ ν ε α} (h₁ : Maintains I R m₁)
    (h₂ : Maintains I R m₂) : Maintains I R (if p then m₁ else m₂) := by
  by_cases h : p
  · rwa [if_pos h]
  · rwa [if_neg h]

include hrefl htrans in
theorem Maintains.each {γ : Type} {f : γ → Prog σ ν ε Unit} :
    ∀ xs : List γ, (∀ x ∈ xs, Maintains I R (f x)) → Maintains I R (Prog.each f xs)
  | [], _ => ReadOnly.maintains hrefl (.pure ())
  | x :: xs, h => by
      rw [each_cons]
      exact Maintains.bind htrans (h x (.head _)) fun _ =>
        Maintains.each xs fun y hy => h y (.tail _ hy)

include hrefl htrans in
theorem Maintains.gather {γ δ : Type} {f : γ → Prog σ ν ε (List δ)} :
    ∀ xs : List γ, (∀ x ∈ xs, Maintains I R (f x)) → Maintains I R (Prog.gather f xs)
  | [], _ => ReadOnly.maintains hrefl (.pure [])
  | x :: xs, h => by
      rw [gather_cons]
      refine Maintains.bind htrans (h x (.head _)) fun ys =>
        Maintains.bind htrans ?_ fun zs => ReadOnly.maintains hrefl (.pure _)
      exact Maintains.gather xs fun y hy => h y (.tail _ hy)

end Maintains

end Prog

/-- A program that is confined to files which neither the invariant nor the growth reads. -/
theorem Confined.maintains {κ : Type} [DecidableEq κ] {Content : κ → Type} {ν ε α : Type}
    {A : κ → Prop} {I : Files Content → Prop} {R : Files Content → Files Content → Prop}
    {m : Prog (Files Content) ν ε α} (h : Confined A m)
    (hI : ∀ s t, I s → Files.Agree A s t → I t) (hR : ∀ s t, Files.Agree A s t → R s t) :
    Prog.Maintains I R m := by
  intro s v hs
  have hagree : ∀ t ∈ m.halts s v, Files.Agree A s t :=
    Prog.wp_halts (h.within s v) (Files.Agree.refl A s)
  refine ⟨fun t ht => hI s t hs (hagree t ht), ?_⟩
  refine List.pairwise_of_forall_mem_list fun t ht u hu => hR t u fun p hp => ?_
  rw [hagree t ht p hp, hagree u hu p hp]

end Durable
