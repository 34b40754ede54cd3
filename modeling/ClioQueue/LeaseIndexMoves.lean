/-
# Moving the lease files

The index writers of `LeaseIndexes` inside an interrupted update of the lease
files: each of them settles the files of one lease, and every state on the way is
one that the update may be stopped in.
-/

import ClioQueue.LeaseRecovery
import ClioQueue.LeaseTable

namespace ClioQueue

open Durable Durable.Prog

/-- The update of the lease files from `f` to `g` is under way, and nothing else has changed
since `s₀`. -/
structure MovedFrom (s₀ : Store) (f g : (p : Path) → Option (Content p)) (D : Path → Prop)
    (t : Store) : Prop where
  agree : Files.Agree leaseFile s₀ t
  moving : Files.Moving leaseFile f g D t

section

variable {C : Store → Prop} {Q : Post Unit}
  {E : Post RelayError} {s₀ s : Store} {v : Supply} {e : LiveLease}
  {f g : (p : Path) → Option (Content p)} {D : Path → Prop}

namespace MovedFrom

variable {t : Store} {p : Path}

theorem start (h : Files.Moving leaseFile f g D s) : MovedFrom s f g D s :=
  ⟨Files.Agree.refl _ s, h⟩

theorem write (h : MovedFrom s₀ f g D t) {c : Content p} (hc : g p = some c) (hp : leaseFile p) :
    MovedFrom s₀ f g (fun q => q = p ∨ D q) (t.write p c) :=
  ⟨h.agree.trans (Files.agree_write hp t c), h.moving.write hc⟩

theorem unlink (h : MovedFrom s₀ f g D t) (hc : g p = none) (hp : leaseFile p) :
    MovedFrom s₀ f g (fun q => q = p ∨ D q) (t.unlink p) :=
  ⟨h.agree.trans (Files.agree_unlink hp t), h.moving.unlink hc⟩

theorem mono {D' : Path → Prop} (h : MovedFrom s₀ f g D t) (hD : ∀ p, D' p → D p) :
    MovedFrom s₀ f g D' t :=
  ⟨h.agree, h.moving.mono hD⟩

theorem forget (h : MovedFrom s₀ f g D t) : MovedFrom s₀ f g (fun _ => False) t :=
  h.mono fun _ => False.elim

theorem keep {q : Path} (h : MovedFrom s₀ f g (fun p => p = q ∨ D p) t) : MovedFrom s₀ f g D t :=
  h.mono fun _ => .inr

/-- A file that already holds its new content is done. -/
theorem add (h : MovedFrom s₀ f g D t) (hp : t.read p = g p) :
    MovedFrom s₀ f g (fun q => q = p ∨ D q) t :=
  ⟨h.agree, h.moving.settle hp fun _ _ => rfl⟩

end MovedFrom

/-! ### References -/

/-- The five references of a lease. -/
def LiveLease.refFiles (e : LiveLease) : List Path :=
  [e.identity.identityRefPath, e.identity.endpointRefPath, e.identity.endpointGuardPath,
    e.identity.clusterKindRefPath, e.identity.expiryRefPath]

theorem LiveLease.content_ref_eq_none {old : LiveLease} {p : Path} (hp : p ∈ old.refFiles)
    (hne : e.identity ≠ old.identity) : e.content p = none := by
  have href : leaseReference old.identity ≠ leaseReference e.identity := fun h =>
    hne (leaseIdentityToken_inj.1 (congrArg Prod.snd h)).symm
  simp only [LiveLease.refFiles, List.mem_cons, List.not_mem_nil, or_false] at hp
  rcases hp with rfl | rfl | rfl | rfl | rfl
  · exact if_neg href
  · exact if_neg fun h => href h.2
  · exact if_neg fun h => href h.2
  · exact if_neg fun h => href h.2
  · exact if_neg fun h => hne (leaseIdentityToken_inj.1 h).symm

theorem wp_unlinkLeaseRefs (h : MovedFrom s₀ f g D s) (hg : ∀ p ∈ e.refFiles, g p = none)
    (hC : ∀ t, MovedFrom s₀ f g D t → C t)
    (hQ : ∀ t, MovedFrom s₀ f g (fun p => p ∈ e.refFiles ∨ D p) t → Q () t v) :
    wp (unlinkLeaseRefs e.identity) C Q E s v := by
  simp only [LiveLease.refFiles, List.forall_mem_cons, List.not_mem_nil, false_imp_iff,
    implies_true, and_true] at hg
  obtain ⟨h₁, h₂, h₃, h₄, h₅⟩ := hg
  have m₁ := h.unlink h₂ trivial
  have m₂ := m₁.unlink h₃ trivial
  have m₃ := m₂.unlink h₄ trivial
  have m₄ := m₃.unlink h₅ trivial
  have m₅ := m₄.unlink h₁ trivial
  simp only [unlinkLeaseRefs, wp_bind, wp_unlink]
  refine ⟨hC _ m₁.keep, hC _ m₂.keep.keep, hC _ m₃.keep.keep.keep, hC _ m₄.keep.keep.keep.keep,
    hC _ m₅.keep.keep.keep.keep.keep, hQ _ (m₅.mono fun p hp => ?_)⟩
  simp only [LiveLease.refFiles, List.mem_cons, List.not_mem_nil, or_false] at hp
  tauto

/-- The references of one lease are written one after the other; in the end all of them have moved,
and those moved before stay so. -/
theorem wp_writeLeaseRefs (h : MovedFrom s₀ f g D s) (hg : ∀ p ∈ e.refFiles, g p = e.content p)
    (hC : ∀ t, MovedFrom s₀ f g (fun _ => False) t → C t)
    (hQ : ∀ t, MovedFrom s₀ f g (fun p => p ∈ e.refFiles ∨ D p) t → Q () t v) :
    wp (writeLeaseRefs e.identity) C Q E s v := by
  simp only [LiveLease.refFiles, List.forall_mem_cons, List.not_mem_nil, false_imp_iff,
    implies_true, and_true] at hg
  obtain ⟨h₁, h₂, h₃, h₄, h₅⟩ := hg
  have c₁ : g (.leaseIdentityRef (leaseReference e.identity)) = some () := h₁.trans (if_pos rfl)
  have c₂ : g (.leaseEndpointRef (leaseEndpointToken e.identity.endpointId)
      (leaseReference e.identity)) = some () := h₂.trans (if_pos ⟨rfl, rfl⟩)
  have c₃ : g (.leaseEndpointGuard (leaseEndpointToken e.identity.endpointId)
      (leaseReference e.identity)) = some () := h₃.trans (if_pos ⟨rfl, rfl⟩)
  have c₄ : g (.leaseClusterKindRef (leaseClusterToken e.identity.cluster) e.identity.jobKind
      (leaseReference e.identity)) = some () := h₄.trans (if_pos ⟨rfl, rfl⟩)
  have c₅ : g (.leaseExpiryRef (leaseIdentityToken e.identity)) = some () := h₅.trans (if_pos rfl)
  have m₁ := h.write c₁ trivial
  have m₂ := m₁.write c₂ trivial
  have m₃ := m₂.write c₃ trivial
  have m₄ := m₃.write c₄ trivial
  have m₅ := m₄.write c₅ trivial
  simp only [writeLeaseRefs, wp_bind, wp_put]
  refine ⟨hC _ m₁.forget, hC _ m₂.forget, hC _ m₃.forget, hC _ m₄.forget, hC _ m₅.forget,
    hQ _ (m₅.mono fun p hp => ?_)⟩
  simp only [LiveLease.refFiles, List.mem_cons, List.not_mem_nil, or_false] at hp
  rcases hp with (rfl | rfl | rfl | rfl | rfl) | hp
  · exact .inr (.inr (.inr (.inr (.inl rfl))))
  · exact .inr (.inr (.inr (.inl rfl)))
  · exact .inr (.inr (.inl rfl))
  · exact .inr (.inl rfl)
  · exact .inl rfl
  · exact .inr (.inr (.inr (.inr (.inr hp))))

/-! ### The identity manifest -/

theorem wp_readLeaseIndexIdentityByToken {Q : Post LeaseIndexIdentity}
    {identity : LeaseIndexIdentity} {token : RefToken} {identityToken : Option LeaseIdentityToken}
    (hread : s.read (.leaseIndex token) = some identity) (hcl : identity.cluster ≠ "")
    (htok : leaseIndexToken identity.leaseId = token)
    (hident : identityToken.all (fun t => leaseIdentityToken identity == t) = true)
    (hQ : Q identity s v) :
    wp (readLeaseIndexIdentityByToken token identityToken) C Q E s v := by
  simp [readLeaseIndexIdentityByToken, hread, hcl, htok, hident, hQ]

theorem wp_readLeaseIndexIdentity {Q : Post LeaseIndexIdentity}
    {leaseId : DurableRecordId} {identity : LeaseIndexIdentity}
    (hread : s.read (.leaseIndex (leaseIndexToken leaseId)) = some identity)
    (hcl : identity.cluster ≠ "") (hid : identity.leaseId = leaseId) (hQ : Q identity s v) :
    wp (readLeaseIndexIdentity leaseId) C Q E s v := by
  unfold readLeaseIndexIdentity
  rw [wp_bind]
  refine wp_readLeaseIndexIdentityByToken hread hcl (by rw [hid]) rfl ?_
  simp [hid, hQ]

/-! ### Removal -/

/-- **Removed indexes.**  A manifest that is there is that of the lease, so nothing is refused. -/
theorem wp_deleteLeaseOperationalIndexes {allowForeignManifest : Bool}
    (h : MovedFrom s₀ f g D s) (hg : ∀ p ∈ e.indexFiles, g p = none) (hcl : e.cluster ≠ "")
    (hs : ∀ identity, s.read e.identity.indexPath = some identity → identity = e.identity)
    (hC : ∀ t, MovedFrom s₀ f g D t → C t)
    (hQ : ∀ t, MovedFrom s₀ f g (fun p => p ∈ e.indexFiles ∨ D p) t → Q () t v) :
    wp (deleteLeaseOperationalIndexes e.identity allowForeignManifest) C Q E s v := by
  have hrefs : ∀ p ∈ e.refFiles, g p = none := fun p hp => hg p (.tail _ hp)
  have hidx : g e.identity.indexPath = none := hg _ (.head _)
  have hall : ∀ p, p ∈ e.indexFiles ∨ D p →
      p = e.identity.indexPath ∨ p ∈ e.refFiles ∨ D p := fun p hp => by
    rcases hp with hp | hp
    · rcases List.mem_cons.1 hp with rfl | hp
      · exact .inl rfl
      · exact .inr (.inl hp)
    · exact .inr (.inr hp)
  unfold deleteLeaseOperationalIndexes
  rw [wp_bind, wp_present]
  refine wp_cases (fun hfound => ?_) fun hmiss => ?_
  · obtain ⟨identity, hread⟩ := Option.isSome_iff_exists.1 hfound
    obtain rfl := hs identity hread
    have hread' : s.read (.leaseIndex (leaseIndexToken e.identity.leaseId)) = some e.identity :=
      hread
    rw [wp_bind]
    refine wp_readLeaseIndexIdentityByToken hread' hcl rfl rfl ?_
    rw [if_pos rfl, wp_bind]
    refine wp_unlinkLeaseRefs h hrefs hC fun t ht => ?_
    have m := ht.unlink hidx trivial
    exact wp_unlink.2 ⟨hC _ (m.mono fun p hp => .inr (.inr hp)), hQ _ (m.mono hall)⟩
  · have hread : s.read e.identity.indexPath = none := by
      rwa [Bool.not_eq_true, Option.isSome_eq_false_iff, Option.isNone_iff_eq_none] at hmiss
    refine wp_unlinkLeaseRefs (h.add (hread.trans hidx.symm)) hrefs (fun t ht => hC t ht.keep)
      fun t ht => ?_
    exact hQ t (ht.mono fun p hp => or_left_comm.1 (hall p hp))

/-- **A removed lease.**  The canonical record goes first. -/
theorem wp_removeLeaseFiles {allowForeignManifest : Bool} (h : MovedFrom s₀ f g D s)
    (hg : ∀ p ∈ e.files, g p = none) (hcl : e.cluster ≠ "")
    (hs : ∀ identity, s.read e.identity.indexPath = some identity → identity = e.identity)
    (hC : ∀ t, MovedFrom s₀ f g (fun p => p = .lease e.lease.leaseId ∨ D p) t → C t)
    (hQ : ∀ t, MovedFrom s₀ f g (fun p => p ∈ e.files ∨ D p) t → Q () t v) :
    wp (unlink (.lease e.lease.leaseId) >>= fun _ =>
      unlink (.leaseByJob e.lease.jobId e.lease.leaseId) >>= fun _ =>
        deleteLeaseOperationalIndexes e.identity allowForeignManifest) C Q E s v := by
  have m₁ := h.unlink (hg (.lease e.lease.leaseId) (.head _)) trivial
  have m₂ := m₁.unlink (hg (.leaseByJob e.lease.jobId e.lease.leaseId) (.tail _ (.head _))) trivial
  simp only [wp_bind, wp_unlink]
  refine ⟨hC _ m₁, hC _ m₂.keep, ?_⟩
  refine wp_deleteLeaseOperationalIndexes m₂ (fun p hp => hg p (.tail _ (.tail _ hp))) hcl
    (fun identity hread => hs identity ?_) (fun t ht => hC t ht.keep)
    fun t ht => hQ t (ht.mono fun p hp => ?_)
  · rwa [Files.read_unlink_ne (by simp [LeaseIndexIdentity.indexPath]),
      Files.read_unlink_ne (by simp [LeaseIndexIdentity.indexPath])] at hread
  · rcases hp with hp | hp
    · rcases List.mem_cons.1 hp with rfl | hp
      · exact .inr (.inr (.inl rfl))
      · rcases List.mem_cons.1 hp with rfl | hp
        · exact .inr (.inl rfl)
        · exact .inl hp
    · exact .inr (.inr (.inr hp))

/-! ### Convergence -/

theorem leaseIndexIdentity_live {job : RelayJob} (hjob : e.lease.jobId = job.jobId)
    (hcl : job.cluster = e.cluster) (hkind : job.kind = e.kind) :
    leaseIndexIdentity e.lease job = .ok e.identity := by
  rw [leaseIndexIdentity, if_pos hjob, Lease.identity, LiveLease.identity, hcl, hkind]

variable [Platform]

/-- The manifest of a lease, if there is one, is of the lease and well formed. -/
def ManifestOf (leaseId : DurableRecordId) (s : Store) : Prop :=
  ∀ identity, s.read (.leaseIndex (leaseIndexToken leaseId)) = some identity →
    identity.leaseId = leaseId ∧ identity.cluster ≠ ""

/-- The manifest of a lease is written by one write, or refused before it if it does not fit. -/
theorem wp_writeLeaseIndexIdentity (h : MovedFrom s₀ f g D s)
    (hg : g e.identity.indexPath = e.content e.identity.indexPath)
    (hs : ManifestOf e.lease.leaseId s)
    (hC : ∀ t, MovedFrom s₀ f g (fun _ => False) t → C t)
    (hQ : ∀ t, MovedFrom s₀ f g (fun p => p = e.identity.indexPath ∨ D p) t → Q () t v)
    (hE : Platform.leaseIndexFits e.identity = false → ∀ err, E err s v) :
    wp (writeLeaseIndexIdentity e.identity) C Q E s v := by
  have hc : g (.leaseIndex (leaseIndexToken e.identity.leaseId)) = some e.identity := hg
  have hwrite : wp (putWithin (Platform.leaseIndexFits e.identity)
      (.leaseIndex (leaseIndexToken e.identity.leaseId)) e.identity) C Q E s v := by
    rw [wp_putWithin]
    have m := h.write hc trivial
    exact ⟨fun _ => ⟨hC _ m.forget, hQ _ m⟩, fun hfits => hE hfits _⟩
  unfold writeLeaseIndexIdentity
  rw [wp_bind, wp_present]
  refine wp_cases (fun hfound => ?_) fun _ => hwrite
  obtain ⟨manifest, hread⟩ := Option.isSome_iff_exists.1 hfound
  have hread' : s.read (.leaseIndex (leaseIndexToken e.identity.leaseId)) = some manifest := hread
  obtain ⟨hid, hcl⟩ := hs manifest hread
  have hid' : manifest.leaseId = e.identity.leaseId := hid
  rw [wp_bind]
  refine wp_readLeaseIndexIdentityByToken hread' hcl (by rw [hid']) rfl ?_
  exact wp_require_then (fun _ => hwrite)
    fun h => absurd (beq_iff_eq.2 hid') (by rw [h]; exact Bool.false_ne_true)

/-- **New indexes.**  All index files of a lease are written. -/
theorem wp_syncLeaseOperationalIndexes_new {Q : Post LeaseIndexIdentity}
    {job : RelayJob} (hjob : e.lease.jobId = job.jobId)
    (hcl : job.cluster = e.cluster) (hkind : job.kind = e.kind) (h : MovedFrom s₀ f g D s)
    (hg : ∀ p ∈ e.indexFiles, g p = e.content p) (hs : ManifestOf e.lease.leaseId s)
    (hC : ∀ t, MovedFrom s₀ f g (fun _ => False) t → C t)
    (hQ : ∀ t, MovedFrom s₀ f g (fun p => p ∈ e.indexFiles ∨ D p) t → Q e.identity t v)
    (hE : Platform.leaseIndexFits e.identity = false →
      ∀ err t, MovedFrom s₀ f g D t → E err t v) :
    wp (syncLeaseOperationalIndexes e.lease job none) C Q E s v := by
  simp only [syncLeaseOperationalIndexes, wp_bind, wp_ofExcept, wp_pure,
    leaseIndexIdentity_live hjob hcl hkind, Except.ok.injEq, reduceCtorEq, false_imp_iff,
    implies_true, and_true, forall_eq']
  refine wp_writeLeaseIndexIdentity h (hg _ (.head _)) hs hC (fun t ht => ?_)
    fun hfits err => hE hfits err s h
  refine wp_writeLeaseRefs ht (fun p hp => hg p (.tail _ hp)) hC fun t ht => ?_
  refine hQ t (ht.mono fun p hp => ?_)
  rcases hp with hp | hp
  · rcases List.mem_cons.1 hp with rfl | hp
    · exact .inr (.inl rfl)
    · exact .inl hp
  · exact .inr (.inr hp)

/-- **Renewed indexes.**  The references of the old expiry are removed and those of the new
one written. -/
theorem wp_syncLeaseOperationalIndexes_renew {Q : Post LeaseIndexIdentity}
    {old : LiveLease} {job : RelayJob} (hid : old.lease.leaseId = e.lease.leaseId)
    (hjobs : old.lease.jobId = e.lease.jobId) (hendp : old.lease.endpointId = e.lease.endpointId)
    (hcls : old.cluster = e.cluster) (hkinds : old.kind = e.kind)
    (hjob : e.lease.jobId = job.jobId) (hcl : job.cluster = e.cluster)
    (hkind : job.kind = e.kind) (h : MovedFrom s₀ f g D s)
    (hg : ∀ p ∈ e.indexFiles, g p = e.content p) (hgold : ∀ p ∈ old.refFiles, g p = e.content p)
    (hs : ∀ t, MovedFrom s₀ f g (fun _ => False) t → ManifestOf e.lease.leaseId t)
    (hC : ∀ t, MovedFrom s₀ f g (fun _ => False) t → C t)
    (hQ : ∀ t, MovedFrom s₀ f g (fun p => p ∈ e.indexFiles ∨ p ∈ old.refFiles ∨ D p) t →
      Q e.identity t v)
    (hE : ∀ err t, MovedFrom s₀ f g (fun _ => False) t → E err t v) :
    wp (syncLeaseOperationalIndexes e.lease job (some old.lease)) C Q E s v := by
  have hold : leaseIndexIdentity old.lease job = .ok old.identity :=
    leaseIndexIdentity_live (hjobs.trans hjob) (hcl.trans hcls.symm) (hkind.trans hkinds.symm)
  have hsame : (old.identity.leaseId == e.identity.leaseId &&
      old.identity.jobId == e.identity.jobId &&
        old.identity.endpointId == e.identity.endpointId) = true := by
    simp [LiveLease.identity, hid, hjobs, hendp]
  -- The stale references are gone, unless they are those of the new identity.
  have hstale : wp (if old.identity = e.identity then pure () else unlinkLeaseRefs old.identity)
      C (fun _ t w => w = v ∧ MovedFrom s₀ f g
        (fun p => (p ∈ old.refFiles ∧ p ∉ e.refFiles) ∨ D p) t) E s v := by
    refine wp_cases (fun hsame => ?_) fun hne => ?_
    · rw [wp_pure]
      refine ⟨rfl, h.mono fun p hp => hp.resolve_left ?_⟩
      rintro ⟨hp, hp'⟩
      unfold LiveLease.refFiles at hp hp'
      rw [hsame] at hp
      exact hp' hp
    · have hnone : ∀ p ∈ old.refFiles, g p = none := fun p hp => by
        rw [hgold p hp, LiveLease.content_ref_eq_none hp fun h => hne h.symm]
      exact wp_unlinkLeaseRefs h hnone (fun t ht => hC t ht.forget) fun t ht =>
        ⟨rfl, ht.mono fun p hp => hp.imp_left And.left⟩
  simp only [syncLeaseOperationalIndexes, leaseIndexIdentity_live hjob hcl hkind, hold, hsame,
    wp_bind, wp_ofExcept, wp_require, wp_pure, Except.ok.injEq, reduceCtorEq,
    false_imp_iff, implies_true, and_true, forall_eq', true_imp_iff, Bool.true_eq_false]
  refine wp_imp hstale fun _ t w ht => ?_
  obtain ⟨rfl, ht⟩ := ht
  refine wp_writeLeaseIndexIdentity ht (hg _ (.head _)) (hs t ht.forget) hC (fun t ht => ?_)
    fun _ err => hE err t ht.forget
  refine wp_writeLeaseRefs ht (fun p hp => hg p (.tail _ hp)) hC fun t ht => ?_
  refine hQ t (ht.mono fun p hp => ?_)
  rcases hp with hp | hp | hp
  · rcases List.mem_cons.1 hp with rfl | hp
    · exact .inr (.inl rfl)
    · exact .inl hp
  · by_cases hpe : p ∈ e.refFiles
    · exact .inl hpe
    · exact .inr (.inr (.inl ⟨hp, hpe⟩))
  · exact .inr (.inr (.inr hp))

end

end ClioQueue
