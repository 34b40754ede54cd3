/-
# A store of typed files

A file store maps paths to contents whose type depends on the path, and holds
finitely many files, so that it can be listed and counted.  `Files.read`,
`Files.write` and `Files.unlink` are the single-file operations,
`Files.collect` lists what a directory scan would see and `Files.count` counts
the files that satisfy a test.

`Files.Moving` is the shape of an interrupted multi-file update: every watched
path holds its old or its new content.  A write or an unlink of the new content
keeps it and settles the path (`Moving.write`, `Moving.unlink`), and when all
paths on which old and new differ are settled the update is complete
(`Moving.finish`).
-/

import Mathlib.Data.Finset.Card
import Mathlib.Data.List.AList
import Mathlib.Data.Multiset.Replicate
import ClioQueue.Durable.Program

namespace Durable

/-- Finitely many files, each with a content of its path's type. -/
def Files {κ : Type} (Content : κ → Type) : Type := AList Content

namespace Files

variable {κ : Type} [DecidableEq κ] {Content : κ → Type} {γ : Type}

/-- The store without a file. -/
def empty : Files Content := (∅ : AList Content)

/-- The content of a file, `none` when it is missing. -/
def read (s : Files Content) (p : κ) : Option (Content p) := AList.lookup p s

/-- Write a file, replacing what it held. -/
def write (s : Files Content) (p : κ) (c : Content p) : Files Content := AList.insert p c s

/-- Remove a file; a missing file stays missing. -/
def unlink (s : Files Content) (p : κ) : Files Content := AList.erase p s

/-- What `f` extracts from the files of the store. -/
def collect (f : (p : κ) → Content p → Option γ) (s : Files Content) : List γ :=
  (AList.entries s).filterMap fun e => f e.1 e.2

/-- The number of files that satisfy a test. -/
def count (P : (p : κ) → Content p → Bool) (s : Files Content) : Nat :=
  (AList.entries s).countP fun e => P e.1 e.2

variable {s t : Files Content} {p q : κ}
  {P Q : (p : κ) → Content p → Bool} {f : (p : κ) → Content p → Option γ} {c : Content p}
  {x : γ} {A : κ → Prop}

@[simp]
theorem read_empty (p : κ) : (empty : Files Content).read p = none := rfl

@[simp]
theorem read_write_self (s : Files Content) (p : κ) (c : Content p) :
    (s.write p c).read p = some c :=
  AList.lookup_insert s

theorem read_write_ne (c : Content p) (h : q ≠ p := by simp) : (s.write p c).read q = s.read q :=
  AList.lookup_insert_ne h

@[simp]
theorem read_unlink_self (s : Files Content) (p : κ) : (s.unlink p).read p = none :=
  AList.lookup_erase p s

theorem read_unlink_ne (h : q ≠ p := by simp) : (s.unlink p).read q = s.read q :=
  AList.lookup_erase_ne h

theorem read_write (s : Files Content) (p : κ) (c : Content p) (q : κ) :
    (s.write p c).read q = if h : p = q then some (h ▸ c) else s.read q := by
  by_cases h : p = q
  · subst h
    simp
  · rw [dif_neg h, read_write_ne c (Ne.symm h)]

theorem read_unlink (s : Files Content) (p q : κ) :
    (s.unlink p).read q = if p = q then none else s.read q := by
  by_cases h : p = q
  · subst h
    simp
  · rw [if_neg h, read_unlink_ne (Ne.symm h)]

theorem mem_entries : (⟨p, c⟩ : Sigma Content) ∈ AList.entries s ↔
    s.read p = some c :=
  AList.mem_lookup_iff.symm

theorem mem_collect : x ∈ s.collect f ↔ ∃ p c, s.read p = some c ∧ f p c = some x := by
  constructor
  · intro h
    obtain ⟨⟨p, c⟩, he, hf⟩ := List.mem_filterMap.1 h
    exact ⟨p, c, mem_entries.1 he, hf⟩
  · rintro ⟨p, c, hr, hf⟩
    exact List.mem_filterMap.2 ⟨⟨p, c⟩, mem_entries.2 hr, hf⟩

/-- A listing has no duplicates when each item comes from one path. -/
theorem nodup_collect
    (hf : ∀ p c q d x, s.read p = some c → s.read q = some d → f p c = some x → f q d = some x → p = q) :
    (s.collect f).Nodup := by
  have hkeys : (AList.entries s).Pairwise fun a b => a.1 ≠ b.1 :=
    List.nodupKeys_iff_pairwise.1 s.nodupKeys
  have hdist : (AList.entries s).Pairwise fun a b =>
      ∀ x ∈ f a.1 a.2, ∀ y ∈ f b.1 b.2, x ≠ y := by
    refine hkeys.imp_of_mem fun {a b} ha hb hab x hx y hy hxy => ?_
    subst hxy
    exact hab (hf _ _ _ _ x (mem_entries.1 ha) (mem_entries.1 hb) hx hy)
  exact List.Pairwise.filterMap _ (fun a b hab x hx y hy => hab x hx y hy) hdist

/-- A projection of a listing has no duplicates when each of its values comes from one path. -/
theorem nodup_map_collect {δ : Type} (g : γ → δ)
    (hf : ∀ p c q d x y, s.read p = some c → s.read q = some d → f p c = some x → f q d = some y → g x = g y → p = q) :
    ((s.collect f).map g).Nodup := by
  have hmap : (s.collect f).map g = s.collect fun p c => (f p c).map g := by
    rw [collect, collect, List.map_filterMap]
  rw [hmap]
  refine nodup_collect fun p c q d z hp hq hx hy => ?_
  obtain ⟨x, hfx, hgx⟩ := Option.map_eq_some_iff.1 hx
  obtain ⟨y, hfy, hgy⟩ := Option.map_eq_some_iff.1 hy
  exact hf p c q d x y hp hq hfx hfy (hgx.trans hgy.symm)

/-! ### Counting -/

/-- The paths whose files satisfy a test. -/
def having (P : (p : κ) → Content p → Bool) (s : Files Content) : Finset κ :=
  (s.collect fun p c => if P p c then some p else none).toFinset

@[simp]
theorem mem_having : p ∈ s.having P ↔ ∃ c, s.read p = some c ∧ P p c = true := by
  simp only [having, List.mem_toFinset, mem_collect, Option.ite_none_right_eq_some,
    Option.some.injEq]
  constructor
  · rintro ⟨p, c, hr, hP, rfl⟩
    exact ⟨c, hr, hP⟩
  · rintro ⟨c, hr, hP⟩
    exact ⟨p, c, hr, hP, rfl⟩

theorem count_eq_card (P : (p : κ) → Content p → Bool) (s : Files Content) :
    s.count P = (s.having P).card := by
  have hnd : (s.collect fun p c => if P p c then some p else none).Nodup := by
    refine nodup_collect fun p c q d x _ _ hx hy => ?_
    simp only [Option.ite_none_right_eq_some, Option.some.injEq] at hx hy
    exact hx.2.trans hy.2.symm
  rw [having, List.toFinset_card_of_nodup hnd, collect, count, List.length_filterMap_eq_countP]
  refine List.countP_congr fun e _ => ?_
  by_cases h : P e.1 e.2 <;> simp [h]

omit [DecidableEq κ] in
/-- The number of items of a listing is the number of files it lists. -/
theorem length_collect (f : (p : κ) → Content p → Option γ) (s : Files Content) :
    (s.collect f).length = s.count fun p c => (f p c).isSome :=
  List.length_filterMap_eq_countP ..

/-- Counts agree when the same paths pass the two tests. -/
theorem count_congr
    (h : ∀ p, (∃ c, s.read p = some c ∧ P p c = true) ↔ ∃ c, t.read p = some c ∧ Q p c = true) :
    s.count P = t.count Q := by
  rw [count_eq_card, count_eq_card]
  congr 1
  ext p
  rw [mem_having, mem_having, h]

/-- A count is at most another when every path that passes the first test passes the second. -/
theorem count_le_count
    (h : ∀ p c, s.read p = some c → P p c = true → ∃ d, t.read p = some d ∧ Q p d = true) :
    s.count P ≤ t.count Q := by
  rw [count_eq_card, count_eq_card]
  refine Finset.card_le_card fun p hp => ?_
  obtain ⟨c, hc, hP⟩ := mem_having.1 hp
  exact mem_having.2 (h p c hc hP)

/-- A list without duplicates of paths that pass a test is no longer than their count. -/
theorem length_le_count {ps : List κ} (hnd : ps.Nodup)
    (h : ∀ p ∈ ps, ∃ c, s.read p = some c ∧ P p c = true) : ps.length ≤ s.count P := by
  rw [count_eq_card, ← List.toFinset_card_of_nodup hnd]
  exact Finset.card_le_card fun p hp => mem_having.2 (h p (List.mem_toFinset.1 hp))

/-- A count depends on the paths that can pass its test only. -/
theorem count_frame (h : ∀ p, (∀ c, P p c = false) ∨ t.read p = s.read p) :
    t.count P = s.count P := by
  refine count_congr fun p => ?_
  rcases h p with hP | hread
  · simp [hP]
  · rw [hread]

/-- A listing depends on the paths that it can list only. -/
theorem mem_collect_frame (h : ∀ p, (∀ c, f p c = none) ∨ t.read p = s.read p) :
    x ∈ t.collect f ↔ x ∈ s.collect f := by
  rw [mem_collect, mem_collect]
  refine exists_congr fun p => ?_
  rcases h p with hf | hread
  · simp [hf]
  · rw [hread]

theorem length_collect_frame (h : ∀ p, (∀ c, f p c = none) ∨ t.read p = s.read p) :
    (t.collect f).length = (s.collect f).length := by
  rw [length_collect, length_collect]
  refine count_frame fun p => (h p).imp_left fun hf c => ?_
  rw [hf c, Option.isSome_none]

/-! ### Bags -/

/-- What `g` makes of the files of the store, as a multiset. -/
def bag (g : (p : κ) → Content p → γ) (s : Files Content) : Multiset γ :=
  ((AList.entries s).map fun e => g e.1 e.2 : List γ)

theorem write_entries (s : Files Content) (p : κ) (c : Content p) :
    AList.entries (s.write p c) = ⟨p, c⟩ :: AList.entries (s.unlink p) := rfl

theorem unlink_of_missing (h : s.read p = none) : s.unlink p = s := by
  refine AList.ext (List.kerase_of_notMem_keys fun hp => ?_)
  exact AList.lookup_eq_none.1 h (AList.mem_keys.2 hp)

theorem entries_perm_unlink (h : s.read p = some c) :
    (AList.entries s).Perm (⟨p, c⟩ :: AList.entries (s.unlink p)) := by
  have hp : p ∈ (AList.entries s).keys := List.mem_keys_of_mem (mem_entries.2 h)
  obtain ⟨d, l₁, l₂, -, hs, hk⟩ := List.exists_of_kerase hp
  have hd : s.read p = some d := mem_entries.1 (by rw [hs]; simp)
  obtain rfl : c = d := Option.some.inj (h.symm.trans hd)
  have hu : AList.entries (s.unlink p) = l₁ ++ l₂ := hk
  rw [hu, hs]
  exact List.perm_middle

theorem bag_unlink {g : (p : κ) → Content p → γ} (h : s.read p = some c) :
    s.bag g = g p c ::ₘ (s.unlink p).bag g :=
  Multiset.coe_eq_coe.2 ((entries_perm_unlink h).map _)

theorem bag_write (g : (p : κ) → Content p → γ) (s : Files Content) (p : κ) (c : Content p) :
    (s.write p c).bag g = g p c ::ₘ (s.unlink p).bag g := by
  rw [bag, write_entries, List.map_cons]
  rfl

/-- Remove several files. -/
def unlinkAll (s : Files Content) (ps : List κ) : Files Content := ps.foldl unlink s

theorem read_unlinkAll (ps : List κ) (s : Files Content) (q : κ) :
    (s.unlinkAll ps).read q = if q ∈ ps then none else s.read q := by
  induction ps generalizing s with
  | nil => simp [unlinkAll]
  | cons p ps ih =>
    have hcons : s.unlinkAll (p :: ps) = (s.unlink p).unlinkAll ps := rfl
    rw [hcons, ih, read_unlink]
    by_cases hq : q ∈ ps
    · simp [hq]
    · by_cases hp : p = q
      · subst hp
        simp
      · simp [hq, hp, Ne.symm hp]

/-- Removing files that all give `x` takes that many copies of `x` out of the bag. -/
theorem bag_unlinkAll {g : (p : κ) → Content p → γ} {x : γ} :
    ∀ (ps : List κ) (s : Files Content), ps.Nodup → (∀ p ∈ ps, ∃ c, s.read p = some c ∧ g p c = x) →
      s.bag g = Multiset.replicate ps.length x + (s.unlinkAll ps).bag g
  | [], s, _, _ => by simp [unlinkAll]
  | p :: ps, s, hnd, h => by
      obtain ⟨hp, hnd⟩ := List.nodup_cons.1 hnd
      obtain ⟨c, hc, hg⟩ := h p (.head _)
      have hrest : ∀ q ∈ ps, ∃ c, (s.unlink p).read q = some c ∧ g q c = x := by
        intro q hq
        rw [read_unlink_ne (by rintro rfl; exact hp hq)]
        exact h q (.tail _ hq)
      rw [bag_unlink hc, hg, bag_unlinkAll ps _ hnd hrest, List.length_cons,
        Multiset.replicate_succ, Multiset.cons_add]
      rfl

/-! ### Interrupted updates -/

/-- An update of the paths of `W` from the contents `f` to the contents `g` is under way:
every path holds its old or its new content, and those of `D` hold their new one. -/
structure Moving (W : κ → Prop) (f g : (p : κ) → Option (Content p)) (D : κ → Prop)
    (s : Files Content) : Prop where
  between : ∀ p, W p → s.read p = f p ∨ s.read p = g p
  done : ∀ p, W p → D p → s.read p = g p

namespace Moving

variable {W : κ → Prop} {f g : (p : κ) → Option (Content p)} {D : κ → Prop}

theorem start (h : ∀ p, W p → s.read p = f p) : Moving W f g (fun _ => False) s :=
  ⟨fun p hp => .inl (h p hp), fun _ _ => False.elim⟩

theorem settle (h : Moving W f g D s) (hp : t.read p = g p) (hne : ∀ q, q ≠ p → t.read q = s.read q) :
    Moving W f g (fun q => q = p ∨ D q) t := by
  constructor
  · intro q hq
    by_cases hqp : q = p
    · subst hqp
      exact .inr hp
    · rw [hne q hqp]
      exact h.between q hq
  · intro q hq hD
    by_cases hqp : q = p
    · subst hqp
      exact hp
    · rw [hne q hqp]
      exact h.done q hq (hD.resolve_left hqp)

theorem write (h : Moving W f g D s) {c : Content p} (hc : g p = some c) :
    Moving W f g (fun q => q = p ∨ D q) (s.write p c) :=
  h.settle (by rw [read_write_self, hc]) fun _ hne => read_write_ne c hne

theorem unlink (h : Moving W f g D s) (hp : g p = none) :
    Moving W f g (fun q => q = p ∨ D q) (s.unlink p) :=
  h.settle (by rw [read_unlink_self, hp]) fun _ hne => read_unlink_ne hne

section

variable (h : Moving W f g D s)

include h

theorem mono {D' : κ → Prop} (hD : ∀ p, D' p → D p) : Moving W f g D' s :=
  ⟨h.between, fun p hp hp' => h.done p hp (hD p hp')⟩

/-- What has been done is forgotten: the shape of a restart. -/
theorem forget : Moving W f g (fun _ => False) s :=
  h.mono fun _ => False.elim

/-- An update that has not settled anything can be turned around. -/
theorem turn : Moving W g f (fun _ => False) s :=
  ⟨fun p hp => (h.between p hp).symm, fun _ _ => False.elim⟩

/-- Writes outside the watched paths do not matter. -/
theorem frame {A : κ → Prop} (hst : ∀ p, ¬ A p → t.read p = s.read p)
    (hA : ∀ p, W p → ¬ A p) : Moving W f g D t := by
  constructor
  · intro p hp
    rw [hst p (hA p hp)]
    exact h.between p hp
  · intro p hp hD
    rw [hst p (hA p hp)]
    exact h.done p hp hD

/-- **The end of an update.**  Where nothing is left to do, every path holds its new content. -/
theorem finish (hD : ∀ p, W p → ¬ D p → f p = g p) :
    ∀ p, W p → s.read p = g p := by
  intro p hp
  by_cases hd : D p
  · exact h.done p hp hd
  · rcases h.between p hp with hr | hr
    · rw [hr, hD p hp hd]
    · exact hr

end

end Moving

/-! ### Frames by path -/

/-- `t` holds what `s` holds at every path outside `A`. -/
def Agree (A : κ → Prop) (s t : Files Content) : Prop := ∀ p, ¬ A p → t.read p = s.read p

theorem Agree.refl (A : κ → Prop) (s : Files Content) : Agree A s s := fun _ _ => rfl

theorem Agree.trans {u : Files Content} (h : Agree A s t) (h' : Agree A t u) : Agree A s u :=
  fun p hp => (h' p hp).trans (h p hp)

theorem Agree.mono {B : κ → Prop} (hAB : ∀ p, A p → B p) (h : Agree A s t) : Agree B s t :=
  fun p hp => h p fun hA => hp (hAB p hA)

theorem agree_write (hp : A p) (s : Files Content) (c : Content p) : Agree A s (s.write p c) := by
  intro q hq
  refine read_write_ne c ?_
  rintro rfl
  exact hq hp

theorem agree_unlink (hp : A p) (s : Files Content) : Agree A s (s.unlink p) := by
  intro q hq
  refine read_unlink_ne ?_
  rintro rfl
  exact hq hp

end Files

/-- A program over files that changes only paths of `A`, wherever it stops. -/
structure Confined {κ : Type} [DecidableEq κ] {Content : κ → Type} {ν ε α : Type} (A : κ → Prop)
    (m : Prog (Files Content) ν ε α) : Prop where
  within : Prog.Within (Files.Agree A) m

namespace Confined

open Files

variable {κ : Type} [DecidableEq κ] {Content : κ → Type} {ν ε α β : Type} {A B : κ → Prop}
  {m : Prog (Files Content) ν ε α} {p : κ}

theorem pure (a : α) : Confined A (Pure.pure a : Prog (Files Content) ν ε α) :=
  ⟨Prog.within_pure (Agree.refl A) a⟩

theorem raise (e : ε) : Confined A (Prog.raise e : Prog (Files Content) ν ε α) :=
  ⟨Prog.within_raise (Agree.refl A) e⟩

theorem look (f : Files Content → α) : Confined A (Prog.look f : Prog (Files Content) ν ε α) :=
  ⟨Prog.within_look (Agree.refl A) f⟩

theorem draw (f : ν → α × ν) : Confined A (Prog.draw f : Prog (Files Content) ν ε α) :=
  ⟨Prog.within_draw (Agree.refl A) f⟩

theorem ofExcept (x : Except ε α) : Confined A (Prog.ofExcept x : Prog (Files Content) ν ε α) :=
  ⟨Prog.within_ofExcept (Agree.refl A) x⟩

theorem require (b : Bool) (e : ε) :
    Confined A (Prog.require b e : Prog (Files Content) ν ε Unit) :=
  ⟨Prog.within_require (Agree.refl A) b e⟩

theorem write (hp : A p) (c : Content p) :
    Confined A (Prog.durably fun s => s.write p c : Prog (Files Content) ν ε Unit) :=
  ⟨Prog.within_durably fun s => agree_write hp s c⟩

theorem unlink (hp : A p) :
    Confined A (Prog.durably fun s => s.unlink p : Prog (Files Content) ν ε Unit) :=
  ⟨Prog.within_durably fun s => agree_unlink hp s⟩

theorem mapError (f : ε → ε) (h : Confined A m) : Confined A (Prog.mapError f m) :=
  ⟨Prog.within_mapError f h.within⟩

theorem ite {p : Prop} [Decidable p] {m₁ m₂ : Prog (Files Content) ν ε α} (h₁ : Confined A m₁)
    (h₂ : Confined A m₂) : Confined A (if p then m₁ else m₂) :=
  ⟨Prog.within_ite h₁.within h₂.within⟩

theorem bind {f : α → Prog (Files Content) ν ε β} (hm : Confined A m) (hf : ∀ a, Confined A (f a)) :
    Confined A (m >>= f) :=
  ⟨Prog.within_bind (fun _ _ _ => Agree.trans) hm.within fun a => (hf a).within⟩

theorem guard {b : Bool} {e : ε} (hm : Confined A m) :
    Confined A (Prog.require b e >>= fun _ => m) := .bind (.require b e) fun _ => hm

theorem each {γ : Type} {f : γ → Prog (Files Content) ν ε Unit} (xs : List γ)
    (h : ∀ x ∈ xs, Confined A (f x)) : Confined A (Prog.each f xs) :=
  ⟨Prog.within_each (Agree.refl A) (fun _ _ _ => Agree.trans) xs fun x hx => (h x hx).within⟩

theorem gather {γ δ : Type} {f : γ → Prog (Files Content) ν ε (List δ)} (xs : List γ)
    (h : ∀ x ∈ xs, Confined A (f x)) : Confined A (Prog.gather f xs) :=
  ⟨Prog.within_gather (Agree.refl A) (fun _ _ _ => Agree.trans) xs fun x hx => (h x hx).within⟩

theorem mono (hAB : ∀ p, A p → B p) (h : Confined A m) : Confined B m :=
  ⟨fun s v => Prog.wp_mono (h.within s v) (fun _ h => h.mono hAB) (fun _ _ _ h => h.mono hAB)
    (fun _ _ _ h => h.mono hAB)⟩

theorem ofReadOnly (h : m.ReadOnly) : Confined A m :=
  ⟨fun s _ => h.wp (fun _ _ => Agree.refl A s) fun _ _ => Agree.refl A s⟩

/-- **Invariants of the untouched files.**  What depends only on paths outside
`A` survives a program confined to `A`. -/
theorem wp (h : Confined A m) {s : Files Content} {v : ν} {C : Files Content → Prop}
    {Q : α → Files Content → ν → Prop} {E : ε → Files Content → ν → Prop}
    (hC : ∀ t, Agree A s t → C t) (hQ : ∀ a t w, Agree A s t → Q a t w)
    (hE : ∀ e t w, Agree A s t → E e t w) : Prog.wp m C Q E s v :=
  Prog.Within.wp h.within hC hQ hE

end Confined

end Durable
