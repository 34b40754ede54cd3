/-
# The global orders along runs

`ensure_global` writes the head of an order, the mapping of the record and its
entry, in turn.  `OrderedBy` is what holds between any two of these writes, and
`OrderGrows` what two stores of one run have in common: a mapping is for ever, and
a later first assignment is beyond the head that the earlier store had.

`OrderOk` adds that every canonical job and gateway session is in its order, which
the submissions and the collections keep (`Rewritten`).
-/

import ClioQueue.GlobalPages
import ClioQueue.SubmissionStages
import ClioQueue.SyncReplay

namespace ClioQueue

open Durable Durable.Prog Durable.Files

/-! ### One order -/

/-- The head of a global order. -/
def headOf (family : GlobalFamily) (s : Store) : Nat := (s.read (.globalHead family)).getD 0

/-- The mapping and the entry of a record are both written. -/
def Placed (family : GlobalFamily) (recordId : DurableRecordId) (s : Store) : Prop :=
  ∃ n, s.read (.globalById family recordId) = some ⟨recordId, n⟩ ∧
    s.read (.globalEntry family n) = some ⟨recordId, n⟩

/-- **The shape of an order**, between any two writes. -/
structure OrderedBy (family : GlobalFamily) (s : Store) : Prop where
  head : ∀ n, s.read (.globalHead family) = some n → validSequence n = true
  mapping : ∀ id r, s.read (.globalById family id) = some r →
    r.recordId = id ∧ 1 ≤ r.sequence ∧ r.sequence ≤ headOf family s
  distinct : ∀ id id' r r', s.read (.globalById family id) = some r →
    s.read (.globalById family id') = some r' → r.sequence = r'.sequence → id = id'
  entry : ∀ n r, s.read (.globalEntry family n) = some r →
    r.sequence = n ∧ s.read (.globalById family r.recordId) = some r

/-- **How an order grows.** -/
structure OrderGrows (family : GlobalFamily) (s t : Store) : Prop where
  mapping : ∀ id r, s.read (.globalById family id) = some r →
    t.read (.globalById family id) = some r
  entry : ∀ n r, s.read (.globalEntry family n) = some r → t.read (.globalEntry family n) = some r
  head : headOf family s ≤ headOf family t
  later : ∀ id r, s.read (.globalById family id) = none →
    t.read (.globalById family id) = some r → headOf family s < r.sequence

section

variable {family : GlobalFamily} {recordId : DurableRecordId} {s t u : Store}

theorem OrderGrows.refl (family : GlobalFamily) (s : Store) : OrderGrows family s s := by
  refine ⟨fun _ _ h => h, fun _ _ h => h, le_rfl, fun id r hnone hsome => ?_⟩
  rw [hnone] at hsome
  cases hsome

theorem OrderGrows.trans (h : OrderGrows family s t) (h' : OrderGrows family t u) :
    OrderGrows family s u := by
  refine ⟨fun id r hr => h'.mapping id r (h.mapping id r hr),
    fun n r hr => h'.entry n r (h.entry n r hr), h.head.trans h'.head, fun id r hnone hsome => ?_⟩
  rcases ht : t.read (.globalById family id) with _ | r'
  · exact h.head.trans_lt (h'.later id r ht hsome)
  · have hr' := h'.mapping id r' ht
    rw [hr'] at hsome
    cases hsome
    exact h.later id r hnone ht

theorem Placed.grows (h : Placed family recordId s) (ht : OrderGrows family s t) :
    Placed family recordId t := by
  obtain ⟨n, hmapping, hent⟩ := h
  exact ⟨n, ht.mapping _ _ hmapping, ht.entry _ _ hent⟩

/-- The same order in two stores. -/
def SameOrder (family : GlobalFamily) (s t : Store) : Prop :=
  ∀ p, orderFile family p → t.read p = s.read p

theorem SameOrder.headOf (h : SameOrder family s t) : headOf family t = headOf family s := by
  unfold ClioQueue.headOf
  rw [h (.globalHead family) rfl]

theorem SameOrder.grows (h : SameOrder family s t) : OrderGrows family s t := by
  refine ⟨fun id r hr => ?_, fun n r hr => ?_, h.headOf.ge, fun id r hnone hsome => ?_⟩
  · rwa [h (.globalById family id) rfl]
  · rwa [h (.globalEntry family n) rfl]
  · rw [h (.globalById family id) rfl, hnone] at hsome
    cases hsome

theorem OrderedBy.same (hs : OrderedBy family s) (h : SameOrder family s t) :
    OrderedBy family t := by
  refine ⟨fun n hn => ?_, fun id r hr => ?_, fun id id' r r' hr hr' => ?_, fun n r hr => ?_⟩
  · rw [h (.globalHead family) rfl] at hn
    exact hs.head n hn
  · rw [h (.globalById family id) rfl] at hr
    rw [h.headOf]
    exact hs.mapping id r hr
  · rw [h (.globalById family id) rfl] at hr
    rw [h (.globalById family id') rfl] at hr'
    exact hs.distinct id id' r r' hr hr'
  · rw [h (.globalEntry family n) rfl] at hr
    rw [h (.globalById family _) rfl]
    exact hs.entry n r hr

/-- The head is a valid sequence, or nothing has been assigned. -/
theorem OrderedBy.headOf_lt (hs : OrderedBy family s) : headOf family s < 2 ^ 63 := by
  unfold headOf
  rcases hhead : s.read (.globalHead family) with _ | n
  · exact Nat.pow_pos (by decide)
  · have hval := hs.head n hhead
    unfold validSequence at hval
    rw [decide_eq_true_iff] at hval
    exact hval.2

/-- Every mapping has a valid sequence. -/
theorem OrderedBy.valid (hs : OrderedBy family s) {id : DurableRecordId} {r : GlobalOrderRecord}
    (hr : s.read (.globalById family id) = some r) : validSequence r.sequence = true := by
  obtain ⟨-, _, _⟩ := hs.mapping id r hr
  have hlt := hs.headOf_lt
  unfold validSequence
  rw [decide_eq_true_iff]
  omega

theorem OrderedBy.entry_le (hs : OrderedBy family s) {n : Nat} {r : GlobalOrderRecord}
    (hr : s.read (.globalEntry family n) = some r) : n ≤ headOf family s := by
  obtain ⟨rfl, hmapping⟩ := hs.entry n r hr
  exact (hs.mapping _ r hmapping).2.2

/-! ### The writes of `ensure_global` -/

/-- Raising the head of a family by one keeps its order: the position is burnt unless an entry
follows. -/
theorem OrderedBy.burn (hs : OrderedBy family s) (hlt : headOf family s < 2 ^ 63 - 1) :
    OrderedBy family (s.write (.globalHead family) (headOf family s + 1)) ∧
      OrderGrows family s (s.write (.globalHead family) (headOf family s + 1)) ∧
      headOf family (s.write (.globalHead family) (headOf family s + 1)) = headOf family s + 1 := by
  have hhead : headOf family (s.write (.globalHead family) (headOf family s + 1)) =
      headOf family s + 1 := by
    rw [headOf, read_write_self]
    rfl
  have hmapping : ∀ id, (s.write (.globalHead family) (headOf family s + 1)).read
      (.globalById family id) = s.read (.globalById family id) := fun id =>
    read_write_ne _
  have hent : ∀ n, (s.write (.globalHead family) (headOf family s + 1)).read
      (.globalEntry family n) = s.read (.globalEntry family n) := fun n =>
    read_write_ne _
  refine ⟨⟨fun n hn => ?_, fun id r hr => ?_, fun id id' r r' hr hr' => ?_, fun n r hr => ?_⟩,
    ⟨fun id r hr => (hmapping id).trans hr, fun n r hr => (hent n).trans hr, ?_,
      fun id r hnone hsome => ?_⟩, hhead⟩
  · rw [read_write_self] at hn
    cases hn
    unfold validSequence
    rw [decide_eq_true_iff]
    omega
  · rw [hmapping] at hr
    obtain ⟨hid, hpos, _⟩ := hs.mapping id r hr
    rw [hhead]
    exact ⟨hid, hpos, by omega⟩
  · rw [hmapping] at hr hr'
    exact hs.distinct id id' r r' hr hr'
  · rw [hent] at hr
    rw [hmapping]
    exact hs.entry n r hr
  · rw [hhead]
    omega
  · rw [hmapping, hnone] at hsome
    cases hsome

/-- A record is mapped to the head, which nothing else has. -/
theorem OrderedBy.map (hs : OrderedBy family s) (hpos : 1 ≤ headOf family s)
    (hnone : s.read (.globalById family recordId) = none)
    (hfree : ∀ id r, s.read (.globalById family id) = some r → r.sequence ≠ headOf family s) :
    OrderedBy family (s.write (.globalById family recordId) ⟨recordId, headOf family s⟩) := by
  have hhead : headOf family (s.write (.globalById family recordId) ⟨recordId, headOf family s⟩) =
      headOf family s := by
    unfold headOf
    rw [read_write_ne _]
  refine ⟨fun n hn => ?_, fun id r hr => ?_, fun id id' r r' hr hr' hsame => ?_, fun n r hr => ?_⟩
  · rw [read_write_ne _] at hn
    exact hs.head n hn
  · rw [hhead]
    by_cases heq : id = recordId
    · subst heq
      rw [read_write_self] at hr
      cases hr
      exact ⟨rfl, hpos, le_rfl⟩
    · rw [read_write_ne _ (by simpa using heq)] at hr
      exact hs.mapping id r hr
  · by_cases heq : id = recordId
    · subst heq
      rw [read_write_self] at hr
      cases hr
      by_cases heq' : id' = id
      · exact heq'.symm
      · rw [read_write_ne _ (by simpa using heq')] at hr'
        exact (hfree id' r' hr' hsame.symm).elim
    · rw [read_write_ne _ (by simpa using heq)] at hr
      by_cases heq' : id' = recordId
      · subst heq'
        rw [read_write_self] at hr'
        cases hr'
        exact (hfree id r hr hsame).elim
      · rw [read_write_ne _ (by simpa using heq')] at hr'
        exact hs.distinct id id' r r' hr hr' hsame
  · rw [read_write_ne _] at hr
    obtain ⟨hn, hr⟩ := hs.entry n r hr
    refine ⟨hn, ?_⟩
    by_cases heq : r.recordId = recordId
    · rw [heq, hnone] at hr
      cases hr
    · rw [read_write_ne _ (by simpa using heq)]
      exact hr

/-- Entering a record at the sequence it is mapped to keeps the order. -/
theorem OrderedBy.enter (hs : OrderedBy family s) {n : Nat}
    (hmapped : s.read (.globalById family recordId) = some ⟨recordId, n⟩) :
    OrderedBy family (s.write (.globalEntry family n) ⟨recordId, n⟩) := by
  have hhead : headOf family (s.write (.globalEntry family n) ⟨recordId, n⟩) = headOf family s := by
    unfold headOf
    rw [read_write_ne _]
  have hmapping : ∀ id, (s.write (.globalEntry family n) ⟨recordId, n⟩).read
      (.globalById family id) = s.read (.globalById family id) := fun id =>
    read_write_ne _
  refine ⟨fun m hm => ?_, fun id r hr => ?_, fun id id' r r' hr hr' => ?_, fun m r hr => ?_⟩
  · rw [read_write_ne _] at hm
    exact hs.head m hm
  · rw [hmapping] at hr
    rw [hhead]
    exact hs.mapping id r hr
  · rw [hmapping] at hr hr'
    exact hs.distinct id id' r r' hr hr'
  · rw [hmapping]
    by_cases heq : m = n
    · subst heq
      rw [read_write_self] at hr
      cases hr
      exact ⟨rfl, hmapped⟩
    · rw [read_write_ne _ (by simpa using heq)] at hr
      exact hs.entry m r hr

/-- What `ensure_global` can leave. -/
structure Ordering (family : GlobalFamily) (s t : Store) : Prop where
  agree : Agree (orderFile family) s t
  ordered : OrderedBy family t
  grows : OrderGrows family s t

section

variable {C : Store → Prop} {E : Post RelayError} {v : Supply} {n : Nat} {Q : Post Nat}

theorem wp_readGlobalHead (hs : OrderedBy family s) (hQ : Q (headOf family s) s v) :
    wp (readGlobalHead family) C Q E s v := by
  unfold readGlobalHead
  rw [wp_bind, read_eq_look, wp_look]
  unfold headOf at hQ
  rcases hhead : s.read (.globalHead family) with _ | n
  · rw [hhead] at hQ
    exact (wp_pure _).2 hQ
  · rw [hhead] at hQ
    rw [wp_bind, wp_require, hs.head n hhead]
    exact ⟨fun _ => (wp_pure _).2 hQ, nofun⟩

theorem wp_readGlobalRecord {Q : Post (Option GlobalOrderRecord)} {found : Option GlobalOrderRecord}
    (hval : ∀ r, found = some r → validSequence r.sequence = true) (hQ : Q found s v) :
    wp (readGlobalRecord found) C Q E s v := by
  unfold readGlobalRecord
  have hall : (found.all fun record => validSequence record.sequence) = true := by
    rcases found with _ | r
    · rfl
    · exact hval r rfl
  rw [wp_bind, wp_require, hall]
  exact ⟨fun _ => (wp_pure _).2 hQ, nofun⟩

theorem OrderedBy.entry_valid (hs : OrderedBy family s) {r : GlobalOrderRecord}
    (hr : s.read (.globalEntry family n) = some r) : validSequence r.sequence = true :=
  hs.valid (hs.entry n r hr).2

/-- The entry of a mapping is written, or is there. -/
theorem wp_ensureGlobalSequence {Q : Post Unit} (hs : OrderedBy family s)
    (hmapped : s.read (.globalById family recordId) = some ⟨recordId, n⟩)
    (hC : ∀ t, Ordering family s t → C t)
    (hQ : ∀ t, Ordering family s t → t.read (.globalById family recordId) = some ⟨recordId, n⟩ → t.read (.globalEntry family n) = some ⟨recordId, n⟩ → Q () t v) :
    wp (ensureGlobalSequence family recordId n) C Q E s v := by
  unfold ensureGlobalSequence
  rw [wp_bind, read_eq_look, wp_look, wp_bind]
  refine wp_readGlobalRecord (fun r hr => hs.entry_valid hr) ?_
  rcases hent : s.read (.globalEntry family n) with _ | r
  · have hagree : Agree (orderFile family) s (s.write (.globalEntry family n) ⟨recordId, n⟩) :=
      agree_write (A := orderFile family) (p := Path.globalEntry family n) rfl s _
    have hend : Ordering family s (s.write (.globalEntry family n) ⟨recordId, n⟩) := by
      refine ⟨hagree, hs.enter hmapped, ⟨fun id r hr => ?_, fun m r hr => ?_, ?_,
        fun id r hnone hsome => ?_⟩⟩
      · rwa [read_write_ne _]
      · rw [read_write_ne _ ?_]
        · exact hr
        · rintro heq
          cases heq
          rw [hent] at hr
          cases hr
      · unfold headOf
        rw [read_write_ne _]
      · rw [read_write_ne _, hnone] at hsome
        cases hsome
    refine wp_put.2 ⟨hC _ hend, hQ _ hend ?_ (read_write_self ..)⟩
    rw [read_write_ne _]
    exact hmapped
  · obtain ⟨hn, hr⟩ := hs.entry n r hent
    have heq : r = ⟨recordId, n⟩ := by
      have hid := hs.distinct _ _ r ⟨recordId, n⟩ hr hmapped hn
      cases r
      cases hid
      cases hn
      rfl
    subst heq
    rw [wp_require]
    refine ⟨fun _ => hQ s ⟨Agree.refl _ s, hs, .refl _ s⟩ hmapped hent, fun hne => ?_⟩
    rw [beq_self_eq_true] at hne
    cases hne

/-- **`ensure_global`.**  It returns the sequence of the record, and only a used-up order is
refused. -/
theorem wp_ensureGlobal (hs : OrderedBy family s) (hC : ∀ t, Ordering family s t → C t)
    (hQ : ∀ n t, Ordering family s t → t.read (.globalById family recordId) = some ⟨recordId, n⟩ → t.read (.globalEntry family n) = some ⟨recordId, n⟩ → Q n t v)
    (hE : ∀ err, E err s v) : wp (ensureGlobal family recordId) C Q E s v := by
  unfold ensureGlobal
  rw [wp_bind, read_eq_look, wp_look, wp_bind]
  refine wp_readGlobalRecord (fun r hr => hs.valid hr) ?_
  rw [wp_bind]
  refine wp_readGlobalHead hs ?_
  rcases hmapped : s.read (.globalById family recordId) with _ | r
  · simp only
    refine wp_require_then (fun hroom => ?_) fun _ => hE _
    rw [decide_eq_true_iff] at hroom
    obtain ⟨hburnt, hgrown, hhead⟩ := hs.burn hroom
    have hagree : Agree (orderFile family) s (s.write (.globalHead family) (headOf family s + 1)) :=
      agree_write (A := orderFile family) (p := Path.globalHead family) rfl s _
    rw [wp_bind, wp_put]
    refine ⟨hC _ ⟨hagree, hburnt, hgrown⟩, ?_⟩
    have hnone : (s.write (.globalHead family) (headOf family s + 1)).read
        (.globalById family recordId) = none := by
      rw [read_write_ne _]
      exact hmapped
    have hfree : ∀ id r, (s.write (.globalHead family) (headOf family s + 1)).read
        (.globalById family id) = some r → r.sequence ≠ headOf family s + 1 := by
      intro id r hr
      rw [read_write_ne _] at hr
      have hle := (hs.mapping id r hr).2.2
      omega
    generalize s.write (.globalHead family) (headOf family s + 1) = m at *
    rw [← hhead] at hfree ⊢
    have hmap := hburnt.map (by omega) hnone hfree
    have hagree' : Agree (orderFile family) m
        (m.write (.globalById family recordId) ⟨recordId, headOf family m⟩) :=
      agree_write (A := orderFile family) (p := Path.globalById family recordId) rfl m _
    have hgrown' : OrderGrows family s
        (m.write (.globalById family recordId) ⟨recordId, headOf family m⟩) := by
      refine ⟨fun id r hr => ?_, fun n r hr => ?_, ?_, fun id r hid hsome => ?_⟩
      · rw [read_write_ne _ ?_]
        · exact hgrown.mapping id r hr
        · rintro heq
          cases heq
          rw [hmapped] at hr
          cases hr
      · rw [read_write_ne _]
        exact hgrown.entry n r hr
      · refine hgrown.head.trans (le_of_eq ?_)
        unfold headOf
        rw [read_write_ne _]
      · by_cases heq : id = recordId
        · subst heq
          rw [read_write_self] at hsome
          cases hsome
          show headOf family s < headOf family m
          omega
        · rw [read_write_ne _ (by simpa using heq)] at hsome
          exact hgrown.later id r hid hsome
    have hthere : (m.write (.globalById family recordId) ⟨recordId, headOf family m⟩).read
        (.globalById family recordId) = some ⟨recordId, headOf family m⟩ :=
      read_write_self ..
    rw [wp_bind, wp_put]
    refine ⟨hC _ ⟨hagree.trans hagree', hmap, hgrown'⟩, ?_⟩
    rw [wp_bind]
    refine wp_ensureGlobalSequence hmap hthere
      (fun t ht => hC t ⟨(hagree.trans hagree').trans ht.agree, ht.ordered, hgrown'.trans ht.grows⟩)
      fun t ht hmapping hent => (wp_pure _).2 ?_
    exact hQ _ t ⟨(hagree.trans hagree').trans ht.agree, ht.ordered, hgrown'.trans ht.grows⟩
      hmapping hent
  · obtain ⟨hid, _, hle⟩ := hs.mapping recordId r hmapped
    obtain ⟨id, n⟩ := r
    cases hid
    simp only
    refine wp_require_then (fun _ => ?_) fun _ => hE _
    rw [wp_bind]
    exact wp_ensureGlobalSequence hs hmapped hC fun t ht hmapping hent =>
      (wp_pure _).2 (hQ _ t ht hmapping hent)

end

end

/-! ### All orders, and the records in them -/

/-- Every record of the family is named as its file is, and is in the order. -/
def Filed {α : Type} (F : OrderedFamily α) (s : Store) : Prop :=
  ∀ id record, F.find s id = some record → F.identity record = id ∧ Placed F.family id s

/-- **The orders of a queue**, between any two writes. -/
structure OrderOk (s : Store) : Prop where
  ordered : ∀ family, OrderedBy family s
  jobs : Filed orderedJobs s
  sessions : Filed orderedGatewaySessions s
  migration : ∃ state, s.read .migrationState = some state ∧ state.complete = true
  sync : SyncOnly s

/-- All orders grow. -/
def OrdersGrow (s t : Store) : Prop := ∀ family, OrderGrows family s t

/-- What happens beside the orders: canonical records that are in their order may be written,
records may go, and the journal takes synchronisation intents only. -/
structure Rewritten (s t : Store) : Prop where
  order : ∀ family, SameOrder family s t
  migration : t.read .migrationState = s.read .migrationState
  jobs : ∀ id job, t.read (.job id) = some job → s.read (.job id) = some job ∨
    job.jobId = id ∧ Placed .jobs id s
  sessions : ∀ id session, t.read (.gatewaySession id) = some session →
    s.read (.gatewaySession id) = some session ∨
      session.sessionId = id ∧ Placed .gatewaySessions id s
  intents : ∀ key I, t.read (.intent key) = some I → s.read (.intent key) = some I ∨ I.isSync = true

/-- The files that the orders depend on. -/
def orderWatched : Path → Prop
  | .globalHead _ | .globalById .. | .globalEntry .. | .migrationState | .job _
  | .gatewaySession _ | .intent _ => True
  | _ => False

section

variable {s t u : Store} {A : Path → Prop}

theorem orderFile.watched {family : GlobalFamily} {p : Path} (h : orderFile family p) :
    orderWatched p := by
  cases p <;> first | exact h.elim | trivial

theorem Rewritten.of_agree (hA : ∀ p, A p → ¬ orderWatched p) (h : Agree A s t) :
    Rewritten s t := by
  have hsame : ∀ p, orderWatched p → t.read p = s.read p := fun p hp => h p fun hA' => hA p hA' hp
  refine ⟨fun family p hp => hsame p hp.watched, hsame _ trivial, fun id job hjob => .inl ?_,
    fun id session hread => .inl ?_, fun key I hread => .inl ?_⟩
  · rwa [hsame (.job id) trivial] at hjob
  · rwa [hsame (.gatewaySession id) trivial] at hread
  · rwa [hsame (.intent key) trivial] at hread

theorem Rewritten.orders (h : Rewritten s t) : OrdersGrow s t := fun family => (h.order family).grows

theorem OrdersGrow.refl (s : Store) : OrdersGrow s s := fun family => .refl family s

theorem OrdersGrow.trans (h : OrdersGrow s t) (h' : OrdersGrow t u) : OrdersGrow s u :=
  fun family => (h family).trans (h' family)

/-- The orders survive what happens beside them. -/
theorem OrderOk.rewritten (hs : OrderOk s) (h : Rewritten s t) : OrderOk t := by
  refine ⟨fun family => (hs.ordered family).same (h.order family), fun id job hjob => ?_,
    fun id session hsess => ?_, ?_, fun key I hI => ?_⟩
  · rcases h.jobs id job hjob with hold | ⟨hid, hplaced⟩
    · obtain ⟨hid, hplaced⟩ := hs.jobs id job hold
      exact ⟨hid, hplaced.grows (h.orders _)⟩
    · exact ⟨hid, hplaced.grows (h.orders _)⟩
  · rcases h.sessions id session hsess with hold | ⟨hid, hplaced⟩
    · obtain ⟨hid, hplaced⟩ := hs.sessions id session hold
      exact ⟨hid, hplaced.grows (h.orders _)⟩
    · exact ⟨hid, hplaced.grows (h.orders _)⟩
  · rw [h.migration]
    exact hs.migration
  · rcases h.intents key I hI with hold | hsync
    · exact hs.sync key I hold
    · exact hsync

/-- What one family writes while it orders a record keeps the orders of all families, and each only
grows. -/
theorem OrderOk.ordering {family : GlobalFamily} (hs : OrderOk s) (h : Ordering family s t) :
    OrderOk t ∧ OrdersGrow s t := by
  have hother : ∀ other, other ≠ family → SameOrder other s t := by
    intro other hne p hp
    refine h.agree p fun hp' => hne ?_
    cases p <;> first | exact hp.elim | exact hp.symm.trans hp'
  have hgrows : OrdersGrow s t := by
    intro other
    by_cases heq : other = family
    · subst heq
      exact h.grows
    · exact (hother other heq).grows
  have hsame : ∀ p, (∀ f, ¬ orderFile f p) → t.read p = s.read p := fun p hp => h.agree p (hp _)
  refine ⟨⟨fun other => ?_, fun id job hjob => ?_, fun id session hsess => ?_, ?_,
    fun key I hI => ?_⟩, hgrows⟩
  · by_cases heq : other = family
    · subst heq
      exact h.ordered
    · exact (hs.ordered other).same (hother other heq)
  · have hread : t.read (.job id) = s.read (.job id) := hsame _ fun _ h => h
    obtain ⟨hid, hplaced⟩ := hs.jobs id job (hread.symm.trans hjob)
    exact ⟨hid, hplaced.grows (hgrows _)⟩
  · have hread : t.read (.gatewaySession id) = s.read (.gatewaySession id) := hsame _ fun _ h => h
    obtain ⟨hid, hplaced⟩ := hs.sessions id session (hread.symm.trans hsess)
    exact ⟨hid, hplaced.grows (hgrows _)⟩
  · rw [hsame .migrationState fun _ h => h]
    exact hs.migration
  · rw [hsame (.intent key) fun _ h => h] at hI
    exact hs.sync key I hI

end

/-! ### The calls -/

/-- The orders of a store that has grown from `s₀`. -/
def OrderedFrom (s₀ s : Store) : Prop := OrderOk s ∧ OrdersGrow s₀ s

section

variable [Platform] [Entropy] {s₀ s : Store} {v : Supply} {job : RelayJob}

section

omit [Platform] [Entropy]

theorem OrderedFrom.rewritten {t : Store} (hs : OrderedFrom s₀ s) (h : Rewritten s t) :
    OrderedFrom s₀ t :=
  ⟨hs.1.rewritten h, hs.2.trans h.orders⟩

/-- A program that touches no order keeps the orders and the place of every record. -/
theorem OrderedFrom.wp_beside {α : Type} {A : Path → Prop} {m : Op α} (hm : Confined A m)
    (hA : ∀ p, A p → ¬ orderWatched p) (hs : OrderedFrom s₀ s) {family : GlobalFamily}
    {id : DurableRecordId} (hplaced : Placed family id s) :
    wp m (OrderedFrom s₀) (fun _ t _ => OrderedFrom s₀ t ∧ Placed family id t)
      (fun _ t _ => OrderedFrom s₀ t) s v := by
  have hstep : ∀ t, Agree A s t → Rewritten s t := fun t => Rewritten.of_agree hA
  exact hm.wp (fun t ht => hs.rewritten (hstep t ht))
    (fun _ t _ ht => ⟨hs.rewritten (hstep t ht), hplaced.grows ((hstep t ht).orders _)⟩)
    fun _ t _ ht => hs.rewritten (hstep t ht)

theorem OrderedFrom.wp_ensureGlobal (hs : OrderedFrom s₀ s) (family : GlobalFamily)
    (id : DurableRecordId) :
    wp (ensureGlobal family id) (OrderedFrom s₀)
      (fun _ t _ => OrderedFrom s₀ t ∧ Placed family id t) (fun _ t _ => OrderedFrom s₀ t) s v := by
  have hstep : ∀ t, Ordering family s t → OrderedFrom s₀ t := by
    intro t ht
    obtain ⟨hok, hgrow⟩ := hs.1.ordering ht
    exact ⟨hok, hs.2.trans hgrow⟩
  exact ClioQueue.wp_ensureGlobal (hs.1.ordered family) hstep
    (fun n t ht hmapping hent => ⟨hstep t ht, n, hmapping, hent⟩) fun _ => hs

end

/-- A job that has its place in the global order keeps it while the job and its copies are
written. -/
theorem OrderedFrom.wp_writeJob (hs : OrderedFrom s₀ s) (hplaced : Placed .jobs job.jobId s) :
    wp (writeJob job) (OrderedFrom s₀) (fun _ t _ => OrderedFrom s₀ t ∧ Placed .jobs job.jobId t)
      (fun _ t _ => OrderedFrom s₀ t) s v := by
  have hstep : ∀ t, Agree (jobWriteFile job.jobId) s t →
      (t.read (.job job.jobId) = s.read (.job job.jobId) ∨ t.read (.job job.jobId) = some job) →
      (∀ I, t.read (.intent (.jobSync job.jobId)) = some I →
        s.read (.intent (.jobSync job.jobId)) = some I ∨ I.isSync = true) → Rewritten s t := by
    intro t hagree hjob hintent
    have hkept : ∀ p, orderWatched p → p ≠ .job job.jobId → p ≠ .intent (.jobSync job.jobId) →
        t.read p = s.read p := by
      intro p hp hne hne'
      refine hagree p ?_
      rintro (hreceipt | hderived | heq | heq)
      · cases p <;> first | exact hreceipt.elim | exact hp.elim
      · rcases hderived with h | h | h <;> cases p <;> first | exact h.elim | exact hp.elim
      · exact hne heq
      · exact hne' heq
    refine ⟨fun family p hp => hkept p hp.watched (by rintro rfl; exact hp)
      (by rintro rfl; exact hp), hkept _ trivial (by simp) (by simp), fun id found hfound => ?_,
      fun id session hread => .inl ?_, fun key I hread => ?_⟩
    · by_cases heq : id = job.jobId
      · subst heq
        rcases hjob with hold | hnew
        · exact .inl (hold ▸ hfound)
        · rw [hnew] at hfound
          cases hfound
          exact .inr ⟨rfl, hplaced⟩
      · rw [hkept (.job id) trivial (by simpa using heq) (by simp)] at hfound
        exact .inl hfound
    · rwa [hkept (.gatewaySession id) trivial (by simp) (by simp)] at hread
    · by_cases heq : key = .jobSync job.jobId
      · subst heq
        exact hintent I hread
      · rw [hkept (.intent key) trivial (by simp) (by simpa using heq)] at hread
        exact .inl hread
  have hwriting : ∀ t, JobWriting job s t → Rewritten s t := by
    intro t ht
    refine hstep t ht.agree (ht.canonical.imp (fun h => h.1) fun h => h.1) fun I hI => ?_
    rcases ht.journal with hold | hnew
    · exact .inl (hold ▸ hI)
    · rw [hnew] at hI
      cases hI
      exact .inr rfl
  have hwritten : ∀ t, JobWritten job s t → Rewritten s t := by
    intro t ht
    refine hstep t ht.agree (.inr ht.canonical) fun I hI => ?_
    rw [ht.intent] at hI
    cases hI
  refine ClioQueue.wp_writeJob (fun t ht => hs.rewritten (hwriting t ht))
    (fun t ht => hs.rewritten (hwritten t ht))
    (fun t w ht => ⟨hs.rewritten (hwritten t ht), hplaced.grows ((hwritten t ht).orders _)⟩) ?_
  rintro _ t w - (rfl | ht)
  · exact hs
  · exact hs.rewritten (hwriting t ht)

section

omit [Platform] [Entropy]

theorem OrderedFrom.wp_before {α : Type} {A : Path → Prop} {m : Op α} (hm : Confined A m)
    (hA : ∀ p, A p → ¬ orderWatched p) (hs : OrderedFrom s₀ s) :
    Leaves (OrderedFrom s₀) m s v :=
  hm.wp (fun _ ht => hs.rewritten (.of_agree hA ht)) (fun _ _ _ ht => hs.rewritten (.of_agree hA ht))
    fun _ _ _ ht => hs.rewritten (.of_agree hA ht)

theorem keyFile.not_orderWatched (p : Path) (h : keyFile p) : ¬ orderWatched p := by
  cases p <;> first | exact h.elim | exact id

theorem copyFile.not_orderWatched (p : Path) (h : copyFile p) : ¬ orderWatched p := by
  cases p <;> first | exact h.elim | exact id

theorem lineageFile.not_orderWatched (p : Path) (h : lineageFile p) : ¬ orderWatched p := by
  cases p <;> first | exact h.elim | exact id

theorem cancelFile.not_orderWatched (p : Path) (h : cancelFile p) : ¬ orderWatched p := by
  cases p <;> first | exact h.elim | exact id

theorem eventFile.not_orderWatched {jobId : DurableRecordId} (p : Path) (h : eventFile jobId p) :
    ¬ orderWatched p := by
  cases p <;> first | exact h.elim | exact id

theorem gatewayFile.not_orderWatched (p : Path) (h : gatewayFile p) : ¬ orderWatched p := by
  cases p <;> first | exact h.elim | exact id

end

/-- **A submission keeps the orders**, and a job is placed before it is written. -/
theorem OrderedFrom.submissionRule (s₀ : Store) :
    SubmissionRule (OrderedFrom s₀) (fun _ _ => True) (fun _ _ => True)
      (fun job => Placed .jobs job.jobId)
      (fun job => Placed .jobs job.jobId) where
  existing _ _ := trivial
  settle record digest hs _ _ := by
    refine wp_imp (hs.wp_before (confined_settleReservedDigest record digest)
      keyFile.not_orderWatched)
      fun _ _ _ h => ⟨h, trivial⟩
  admits hs _ := by
    refine wp_imp (hs.wp_before (confined_admitNewJob _) copyFile.not_orderWatched)
      fun _ _ _ h => ⟨h, trivial⟩
  reserve hs _ _ _ := by
    refine wp_imp (hs.wp_before (confined_writeIdempotencyRecord _) keyFile.not_orderWatched)
      fun _ _ _ h => ⟨h, trivial⟩
  place hs _ := hs.wp_ensureGlobal _ _
  index hs hplaced :=
    hs.wp_beside (confined_initializeJobIndex (A := eventFile _) _ rfl) eventFile.not_orderWatched
      hplaced
  link hs hplaced :=
    hs.wp_beside (confined_ensureArtifactUseIndexes _) lineageFile.not_orderWatched hplaced
  write hs hplaced := hs.wp_writeJob hplaced
  cancel hs hplaced :=
    hs.wp_beside (confined_ensureRequestedCancellation _) cancelFile.not_orderWatched hplaced
  commit digest hs hplaced :=
    hs.wp_beside (confined_writeCommittedIdempotencyRecord _ digest) keyFile.not_orderWatched hplaced
  event hs hplaced :=
    hs.wp_beside (confined_appendEventUnlocked ..) eventFile.not_orderWatched hplaced
  queued hs hplaced :=
    hs.wp_beside (confined_ensureJobQueuedEvent _) eventFile.not_orderWatched hplaced

omit [Platform] [Entropy] in
/-- A replay of synchronisation intents works beside the orders. -/
theorem SyncStep.rewritten {t : Store} (h : SyncStep s t) : Rewritten s t := by
  have hkept : ∀ p, orderWatched p → (∀ key, p ≠ .intent key) → t.read p = s.read p := by
    intro p hp hne
    refine h.read (fun hsync => ?_) hne
    cases p <;> first | exact hsync.elim | exact hp.elim
  refine ⟨fun family p hp => hkept p hp.watched (by rintro key rfl; exact hp),
    hkept _ trivial (by simp), fun id job hjob => .inl ?_, fun id session hread => .inl ?_,
    fun key I hI => .inl ?_⟩
  · rwa [hkept (.job id) trivial (by simp)] at hjob
  · rwa [hkept (.gatewaySession id) trivial (by simp)] at hread
  · rcases h.intents key with hsame | hnone
    · exact hsame ▸ hI
    · rw [hnone] at hI
      cases hI

theorem OrderedFrom.wp_replay (hs : OrderedFrom s₀ s) :
    Leaves (OrderedFrom s₀) recoverPendingTransitions s v :=
  wp_recoverPendingTransitions_sync hs.1.sync (fun _ ht => hs.rewritten ht.rewritten)
    (fun _ _ ht => hs.rewritten ht.rewritten) fun _ _ _ ht => hs.rewritten ht.rewritten

/-- A gateway session that has its place in the global order keeps it while the session and its
backlinks are written. -/
theorem OrderedFrom.wp_writeGatewaySession {session : GatewaySession} (hs : OrderedFrom s₀ s)
    (hplaced : Placed .gatewaySessions session.sessionId s) :
    Leaves (OrderedFrom s₀) (writeGatewaySession session) s v := by
  unfold Leaves writeGatewaySession writeTransitionIntent
  rw [wp_bind, wp_bind, wp_utcNow, wp_put]
  have hintent : Rewritten s (s.write (.intent (.gatewaySync session.sessionId))
      (.gatewaySync session.sessionId)) := by
    refine ⟨fun family p hp => read_write_ne _ (by rintro rfl; exact hp),
      read_write_ne _, fun id job hjob => .inl ?_, fun id found hread => .inl ?_,
      fun key I hI => ?_⟩
    · rwa [read_write_ne _] at hjob
    · rwa [read_write_ne _] at hread
    · by_cases heq : key = .gatewaySync session.sessionId
      · subst heq
        rw [read_write_self] at hI
        cases hI
        exact .inr rfl
      · rw [read_write_ne _ (by simpa using heq)] at hI
        exact .inl hI
  have hs₁ := hs.rewritten hintent
  have hplaced₁ := hplaced.grows (hintent.orders _)
  refine ⟨hs₁, ?_⟩
  show wp _ _ _ _ (s.write (.intent (.gatewaySync session.sessionId)) _) _
  generalize s.write (.intent (.gatewaySync session.sessionId))
    (.gatewaySync session.sessionId) = m at hs₁ hplaced₁ ⊢
  refine wp_putWithin_then (fun _ => ?_) fun _ => hs₁
  have hrec : Rewritten m (m.write (.gatewaySession session.sessionId) session) := by
    refine ⟨fun family p hp => read_write_ne _ (by rintro rfl; exact hp),
      read_write_ne _, fun id job hjob => .inl ?_, fun id found hread => ?_,
      fun key I hI => .inl ?_⟩
    · rwa [read_write_ne _] at hjob
    · by_cases heq : id = session.sessionId
      · subst heq
        rw [read_write_self] at hread
        cases hread
        exact .inr ⟨rfl, hplaced₁⟩
      · rw [read_write_ne _ (by simpa using heq)] at hread
        exact .inl hread
    · rwa [read_write_ne _] at hI
  have hs₂ := hs₁.rewritten hrec
  refine ⟨hs₂, ?_⟩
  refine wp_then (hs₂.wp_before (confined_syncGatewaySessionDerived _)
    gatewayFile.not_orderWatched) fun _ t w ht => ?_
  have hend : OrderedFrom s₀ (t.unlink (.intent (.gatewaySync session.sessionId))) :=
    ht.rewritten (SyncStep.unlink t _).rewritten
  exact wp_unlink.2 ⟨hend, hend⟩

/-- **A gateway session is created.** -/
theorem OrderedFrom.wp_createGatewaySession (hs : OrderedFrom s₀ s) (session : GatewaySession) :
    Leaves (OrderedFrom s₀) (createGatewaySession session) s v := by
  unfold Leaves createGatewaySession createGatewaySessionUnlocked
  rw [wp_bind]
  refine readOnly_requireIndexMigrationComplete.wp (fun _ w => ?_) fun _ _ => hs
  refine wp_then hs.wp_replay fun _ t w ht => ?_
  rw [wp_bind, read_eq_look, wp_look]
  refine wp_require_then (fun _ => ?_) fun _ => ht
  refine wp_ofExcept_then (fun _ _ => ?_) fun _ _ => ht
  rw [wp_bind]
  refine (readOnly_assertOwnerSessionIntakeOpen ..).wp (fun _ w => ?_) fun _ _ => ht
  refine wp_then (ht.wp_ensureGlobal .gatewaySessions session.sessionId) fun _ u w hu => ?_
  exact wp_then (hu.1.wp_writeGatewaySession hu.2) fun _ _ _ h => (wp_pure _).2 h

end

/-! ### Runs -/

/-- The calls that add records to an order. -/
inductive OrderCall where
  | submitJob (job : RelayJob)
  | createGatewaySession (session : GatewaySession)

/-- The program of a call, its result dropped. -/
def OrderCall.prog [Platform] [Entropy] : OrderCall → Op Unit
  | .submitJob job => ClioQueue.submitJob job >>= fun _ => pure ()
  | .createGatewaySession session => ClioQueue.createGatewaySession session >>= fun _ => pure ()

/-- Anything a collection of retired records may do, at any of its writes: canonical records and
intents go, other files change as they like, and the orders and the migration state stay. -/
structure Collected (s t : Store) : Prop where
  order : ∀ family, SameOrder family s t
  migration : t.read .migrationState = s.read .migrationState
  jobs : ∀ id, t.read (.job id) = s.read (.job id) ∨ t.read (.job id) = none
  sessions : ∀ id, t.read (.gatewaySession id) = s.read (.gatewaySession id) ∨
    t.read (.gatewaySession id) = none
  intents : ∀ key, t.read (.intent key) = s.read (.intent key) ∨ t.read (.intent key) = none

theorem Collected.rewritten {s t : Store} (h : Collected s t) : Rewritten s t := by
  have hkept : ∀ {p : Path} {c : Content p}, (t.read p = s.read p ∨ t.read p = none) →
      t.read p = some c → s.read p = some c := by
    intro p c hor hread
    rcases hor with hsame | hnone
    · exact hsame ▸ hread
    · rw [hnone] at hread
      cases hread
  exact ⟨h.order, h.migration, fun id job hjob => .inl (hkept (h.jobs id) hjob),
    fun id session hread => .inl (hkept (h.sessions id) hread),
    fun key I hI => .inl (hkept (h.intents key) hI)⟩

section

variable [Platform] {s₀ s t : Store}

/-- A submission or a creation, stopped after one of its durable writes or run to its end, or a
step of a collection. -/
def OrderCall.Step (s t : Store) : Prop :=
  (∃ (_ : Entropy) (call : OrderCall) (v : Supply), t ∈ call.prog.halts s v) ∨ Collected s t

/-- A run of submissions, creations and collections. -/
def OrderCall.Run : Store → Store → Prop := Relation.ReflTransGen OrderCall.Step

/-- A queue that has been initialized and never used. -/
structure InitializedQueue (s : Store) : Prop where
  migration : ∃ state, s.read .migrationState = some state ∧ state.complete = true
  empty : ∀ p, ¬ capacityFile p → p ≠ .migrationState → s.read p = none

omit [Platform] in
/-- In an initialized queue every family is empty, so each is in order. -/
theorem InitializedQueue.orderOk (h : InitializedQueue s) : OrderOk s := by
  have hnone : ∀ p, ¬ capacityFile p → p ≠ .migrationState → ∀ c, s.read p ≠ some c := by
    intro p hp hp' c hc
    rw [h.empty p hp hp'] at hc
    cases hc
  refine ⟨fun family => ⟨fun n hn => ?_, fun id r hr => ?_, fun id id' r r' hr => ?_,
    fun n r hr => ?_⟩, fun id job hjob => ?_, fun id session hread => ?_, h.migration,
    fun key I hI => ?_⟩
  · exact (hnone (.globalHead family) id (by simp) n hn).elim
  · exact (hnone (.globalById family id) (fun h => h) (by simp) r hr).elim
  · exact (hnone (.globalById family id) (fun h => h) (by simp) r hr).elim
  · exact (hnone (.globalEntry family n) id (by simp) r hr).elim
  · exact (hnone (.job id) (fun h => h) (by simp) job hjob).elim
  · exact (hnone (.gatewaySession id) (fun h => h) (by simp) session hread).elim
  · exact (hnone (.intent key) id (by simp) I hI).elim

/-- A call that is stopped anywhere leaves a store in order, in which every position that was taken
still holds its record. -/
theorem OrderCall.Step.orderedFrom (hs : OrderOk s) (h : OrderCall.Step s t) : OrderedFrom s t := by
  rcases h with ⟨_, call, v, ht⟩ | hcoll
  · have hstart : OrderedFrom s s := ⟨hs, .refl s⟩
    refine wp_halts ?_ hstart t ht
    rcases call with job | session
    · show wp (ClioQueue.submitJob job >>= fun _ => pure ()) _ _ _ s v
      refine wp_then ((OrderedFrom.submissionRule s).wp_submitJob hstart fun w => ?_)
        fun _ _ _ h => (wp_pure _).2 h.1
      exact wp_imp hstart.wp_replay fun _ _ _ h => ⟨h, fun _ _ => trivial⟩
    · show wp (ClioQueue.createGatewaySession session >>= fun _ => pure ()) _ _ _ s v
      exact wp_then (hstart.wp_createGatewaySession session) fun _ _ _ h => (wp_pure _).2 h
  · exact ⟨hs.rewritten hcoll.rewritten, hcoll.rewritten.orders⟩

/-- **Every run keeps the orders**, and they grow along it. -/
theorem OrderCall.Run.orderedFrom (hs : OrderOk s) (h : OrderCall.Run s t) : OrderedFrom s t := by
  induction h with
  | refl => exact ⟨hs, .refl s⟩
  | tail _ hstep ih =>
    obtain ⟨hok, hgrow⟩ := hstep.orderedFrom ih.1
    exact ⟨hok, ih.2.trans hgrow⟩

end

end ClioQueue
