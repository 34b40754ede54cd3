/-
# Exclusive scheduler cancellation claims

The claims of one scheduler identity, followed through runs of the scheduler
cancellation calls by any number of workers.  The book of claims (`ClaimBook`)
ties the claims issued and accepted so far to the fields of the disposition, and
is kept by every step.  It follows that at any time at most one claim of a kind is
neither expired nor recorded, that the counters count accepted records, and that a
final disposition stays as it is (`cancel_claims_exclusive_of_run`).
-/

import ClioQueue.SchedulerCancelIdentity

namespace ClioQueue

open Durable

/-! ### The book of claims -/

/-- The claim a label issues for an identity. -/
def CancelLabel.issuedFor (kind : ClaimKind) (key : CancelKey) :
    CancelLabel → Option SchedulerCancelClaim
  | .issued kind' key' claim => if kind' = kind ∧ key' = key then some claim else none
  | _ => none

/-- The claim whose record a label accepts for an identity. -/
def CancelLabel.acceptedFor (kind : ClaimKind) (key : CancelKey) :
    CancelLabel → Option DurableRecordId
  | .accepted kind' key' claimId => if kind' = kind ∧ key' = key then some claimId else none
  | _ => none

/-- The claims issued for an identity, in order. -/
def issuedClaims (kind : ClaimKind) (key : CancelKey) (history : List CancelLabel) :
    List SchedulerCancelClaim :=
  history.filterMap (CancelLabel.issuedFor kind key)

/-- The claims whose records were accepted for an identity, in order. -/
def acceptedClaims (kind : ClaimKind) (key : CancelKey) (history : List CancelLabel) :
    List DurableRecordId :=
  history.filterMap (CancelLabel.acceptedFor kind key)

/-- Of two claims of one kind for one identity, the second is made no earlier and under another
random identifier. -/
def CancelLabel.InOrder : CancelLabel → CancelLabel → Prop
  | .issued kind key claim, .issued kind' key' claim' => kind = kind' → key = key' →
      claim.claimedAt ≤ claim'.claimedAt ∧ claim.claimId ≠ claim'.claimId
  | _, _ => True

instance : DecidableRel CancelLabel.InOrder
  | .issued .., .issued .. => inferInstanceAs (Decidable (_ → _ → _ ∧ _))
  | .issued .., .accepted .. | .issued .., .quiet | .issued .., .registered _ => isTrue trivial
  | .accepted .., _ | .quiet, _ | .registered _, _ => isTrue trivial

/-- The claims of every identity are in order.  The calls hold the lock of the queue, and the times
are those of the calls in the order in which they hold it. -/
def CancelOrderly (history : List CancelLabel) : Prop := history.Pairwise CancelLabel.InOrder

instance (history : List CancelLabel) : Decidable (CancelOrderly history) :=
  inferInstanceAs (Decidable (List.Pairwise _ _))

/-- The claims of an identity and its disposition agree. -/
structure ClaimBook (kind : ClaimKind) (key : CancelKey) (history : List CancelLabel)
    (d : SchedulerCancelDisposition) : Prop where
  count : kind.count d = (acceptedClaims kind key history).length
  once : (acceptedClaims kind key history).Nodup
  known : ∀ id ∈ acceptedClaims kind key history,
    ∃ c ∈ issuedClaims kind key history, c.claimId = id
  held : ∀ id, kind.claimId d = some id → id ∉ acceptedClaims kind key history ∧
    ∃ c ∈ issuedClaims kind key history, c.claimId = id
  apart : (issuedClaims kind key history).Pairwise fun c c' =>
    c.claimId ∈ acceptedClaims kind key history ∨ c.expiresAt ≤ c'.claimedAt
  sound : d.ClaimsSound

/-- Every claim was recorded, expired before another was made, or is the one held. -/
def ClaimsOutstanding (kind : ClaimKind) (key : CancelKey) (history : List CancelLabel)
    (d : SchedulerCancelDisposition) : Prop :=
  ∀ c ∈ issuedClaims kind key history, c.claimId ∈ acceptedClaims kind key history ∨
    (∃ c' ∈ issuedClaims kind key history, c.expiresAt ≤ c'.claimedAt) ∨
    (kind.claimId d = some c.claimId ∧ kind.expiresAt d = some c.expiresAt)

/-- The book of an identity. -/
def ClaimsKept (kind : ClaimKind) (key : CancelKey) (history : List CancelLabel) :
    IdentityView → Prop
  | .absent => issuedClaims kind key history = [] ∧ acceptedClaims kind key history = []
  | .pending d => ClaimBook kind key history d ∧ ClaimsOutstanding kind key history d
  | .completed d => ClaimBook kind key history d

section

variable {kind : ClaimKind} {key : CancelKey} {history : List CancelLabel} {label : CancelLabel}
  {d : SchedulerCancelDisposition}
  {complete : Bool} {other : ClaimKind} {id : DurableRecordId} {view view' : IdentityView}
  {claim : SchedulerCancelClaim} {d' : SchedulerCancelDisposition}

theorem issuedClaims_append :
    issuedClaims kind key (history ++ [label]) =
      issuedClaims kind key history ++ (label.issuedFor kind key).toList := by
  rw [issuedClaims, issuedClaims, List.filterMap_append]
  congr 1

theorem acceptedClaims_append :
    acceptedClaims kind key (history ++ [label]) =
      acceptedClaims kind key history ++ (label.acceptedFor kind key).toList := by
  rw [acceptedClaims, acceptedClaims, List.filterMap_append]
  congr 1

/-- A label that does not concern an identity leaves its claims alone. -/
theorem CancelLabel.not_concerns (kind : ClaimKind) (h : ¬ label.Concerns key) :
    label.issuedFor kind key = none ∧ label.acceptedFor kind key = none := by
  cases label with
  | quiet | registered => exact ⟨rfl, rfl⟩
  | issued =>
    refine ⟨if_neg fun heq => ?_, rfl⟩
    exact h heq.2
  | accepted =>
    refine ⟨rfl, if_neg fun heq => ?_⟩
    exact h heq.2

/-- A record that is pending or complete, with the book kept. -/
theorem claimsKept_of (hbook : ClaimBook kind key history d)
    (hout : ClaimsOutstanding kind key history d) :
    ClaimsKept kind key history (.of complete (some d)) := by
  rcases complete with _ | _
  · exact ⟨hbook, hout⟩
  · exact hbook

/-- The book depends on the claims of the identity only. -/
theorem ClaimsKept.congr {history' : List CancelLabel} (h : ClaimsKept kind key history view)
    (hissued : issuedClaims kind key history' = issuedClaims kind key history)
    (hacc : acceptedClaims kind key history' = acceptedClaims kind key history) :
    ClaimsKept kind key history' view := by
  cases view with
  | absent => exact ⟨hissued.trans h.1, hacc.trans h.2⟩
  | pending =>
    obtain ⟨⟨hcnt, honce, hknown, hheld, hapart, hsound⟩, hout⟩ := h
    unfold ClaimsOutstanding at hout
    rw [← hissued, ← hacc] at hout
    rw [← hacc] at hcnt honce hknown hheld hapart
    rw [← hissued] at hknown hheld hapart
    exact ⟨⟨hcnt, honce, hknown, hheld, hapart, hsound⟩, hout⟩
  | completed =>
    obtain ⟨hcnt, honce, hknown, hheld, hapart, hsound⟩ := h
    rw [← hacc] at hcnt honce hknown hheld hapart
    rw [← hissued] at hknown hheld hapart
    exact ⟨hcnt, honce, hknown, hheld, hapart, hsound⟩

/-- The claims made so far, seen from one made now. -/
theorem CancelOrderly.last (h : CancelOrderly (history ++ [.issued kind key claim]))
    {c : SchedulerCancelClaim} (hc : c ∈ issuedClaims kind key history) :
    c.claimedAt ≤ claim.claimedAt ∧ c.claimId ≠ claim.claimId := by
  obtain ⟨label, hlab, hissued⟩ := List.mem_filterMap.1 hc
  have hlast := (List.pairwise_append.1 h).2.2 label hlab _ (List.mem_singleton.2 rfl)
  cases label with
  | issued =>
    rw [CancelLabel.issuedFor] at hissued
    split_ifs at hissued with hsame
    cases hissued
    exact hlast hsame.1 hsame.2
  | _ => cases hissued

theorem ClaimKind.expired_of_due {now expiry : Time} (hdue : kind.due d now = true)
    (hclaim : kind.claimId d = some id) (hexpiry : kind.expiresAt d = some expiry) :
    expiry ≤ now := by
  have hlive : claimLive (kind.claimId d) (kind.expiresAt d) now = false := by
    simpa using (Bool.and_eq_true_iff.1 hdue).2
  rw [hclaim, hexpiry] at hlive
  simpa [claimLive] using hlive

theorem ClaimKind.claimed_other (hother : kind ≠ other) (provider : String) (id : DurableRecordId)
    (claimedAt expiresAt : Time) :
    other.claimId (kind.claimed d provider id claimedAt expiresAt) = other.claimId d ∧
      other.expiresAt (kind.claimed d provider id claimedAt expiresAt) = other.expiresAt d := by
  rcases kind with _ | _
  · rcases other with _ | _
    · exact absurd rfl hother
    · exact ⟨rfl, rfl⟩
  · rcases other with _ | _
    · exact ⟨rfl, rfl⟩
    · exact absurd rfl hother

theorem ClaimKind.claimed_count (provider : String) (id : DurableRecordId)
    (claimedAt expiresAt : Time) :
    other.count (kind.claimed d provider id claimedAt expiresAt) = other.count d := by
  cases kind <;> cases other <;> rfl

/-- A claim that was due and expires later than it is made keeps the claims of its disposition sound. -/
theorem ClaimKind.claimed_sound {provider : String} {claimedAt expiresAt : Time}
    (hsound : d.ClaimsSound) (hdue : kind.due d claimedAt = true) (hexpires : claimedAt < expiresAt) :
    (kind.claimed d provider id claimedAt expiresAt).ClaimsSound := by
  have hclaimable : kind.claimable d.state = true :=
    (Bool.and_eq_true_iff.1 (Bool.and_eq_true_iff.1 hdue).1).1
  rcases kind with _ | _
  · refine ⟨?_, hsound.confirmation⟩
    show (ClaimKind.attempt.claimable d.state && decide (claimedAt < expiresAt)) = true
    rw [hclaimable, decide_eq_true hexpires]
    rfl
  · refine ⟨hsound.attempt, ?_⟩
    show (ClaimKind.confirmation.claimable d.state && decide (claimedAt < expiresAt)) = true
    rw [hclaimable, decide_eq_true hexpires]
    rfl

/-- The book of an identity that appears. -/
theorem ClaimsKept.appears (h : ClaimsKept kind key history .absent) (hunc : d.Unclaimed)
    (hcnt : kind.count d = 0) (hsound : d.ClaimsSound) :
    ClaimBook kind key history d ∧ ClaimsOutstanding kind key history d := by
  obtain ⟨hissued, hacc⟩ := h
  refine ⟨⟨?_, ?_, ?_, ?_, ?_, hsound⟩, ?_⟩
  · rw [hacc, hcnt]
    rfl
  · rw [hacc]
    exact List.nodup_nil
  · rw [hacc]
    exact fun id hid => absurd hid List.not_mem_nil
  · intro id hid
    rw [hunc kind] at hid
    cases hid
  · rw [hissued]
    exact List.Pairwise.nil
  · intro c hc
    rw [hissued] at hc
    exact absurd hc List.not_mem_nil

theorem ClaimBook.dropped (h : ClaimBook kind key history d) (hunc : kind.claimId d' = none)
    (hcnt : kind.count d' = kind.count d) (hsound : d'.ClaimsSound) :
    ClaimBook kind key history d' := by
  refine ⟨hcnt.trans h.count, h.once, h.known, fun id hid => ?_, h.apart, hsound⟩
  rw [hunc] at hid
  cases hid

/-- **The book after a claim.**  The claim that was held has expired, so the new one
is the only one outstanding. -/
theorem ClaimBook.issued (h : ClaimBook kind key history d)
    (hout : ClaimsOutstanding kind key history d)
    (hord : CancelOrderly (history ++ [.issued kind key claim]))
    (hdue : kind.due d claim.claimedAt = true) (hexpires : claim.claimedAt < claim.expiresAt) :
    ClaimBook kind key (history ++ [.issued kind key claim])
        (kind.claimed d claim.provider claim.claimId claim.claimedAt claim.expiresAt) ∧
      ClaimsOutstanding kind key (history ++ [.issued kind key claim])
        (kind.claimed d claim.provider claim.claimId claim.claimedAt claim.expiresAt) := by
  have hissued : issuedClaims kind key (history ++ [.issued kind key claim]) =
      issuedClaims kind key history ++ [claim] := by
    rw [issuedClaims_append, CancelLabel.issuedFor, if_pos ⟨rfl, rfl⟩]
    rfl
  have hacc : acceptedClaims kind key (history ++ [.issued kind key claim]) =
      acceptedClaims kind key history := by
    rw [acceptedClaims_append]
    exact List.append_nil _
  have hheld : kind.claimId
      (kind.claimed d claim.provider claim.claimId claim.claimedAt claim.expiresAt) =
      some claim.claimId := by cases kind <;> rfl
  have hexpiry : kind.expiresAt
      (kind.claimed d claim.provider claim.claimId claim.claimedAt claim.expiresAt) =
      some claim.expiresAt := by cases kind <;> rfl
  -- every earlier claim was recorded or has expired by now
  have hearlier : ∀ c ∈ issuedClaims kind key history,
      c.claimId ∈ acceptedClaims kind key history ∨ c.expiresAt ≤ claim.claimedAt := by
    intro c hc
    rcases hout c hc with hdone | ⟨c', hc', hle⟩ | ⟨hid, hexp⟩
    · exact .inl hdone
    · exact .inr (le_trans hle (hord.last hc').1)
    · exact .inr (ClaimKind.expired_of_due hdue hid hexp)
  refine ⟨⟨?_, ?_, ?_, ?_, ?_, ClaimKind.claimed_sound h.sound hdue hexpires⟩, ?_⟩
  · rw [hacc, ClaimKind.claimed_count]
    exact h.count
  · rw [hacc]
    exact h.once
  · intro id hid
    rw [hacc] at hid
    rw [hissued]
    obtain ⟨c, hc, hcid⟩ := h.known id hid
    exact ⟨c, List.mem_append_left _ hc, hcid⟩
  · intro id hid
    rw [hheld] at hid
    injection hid with hid
    subst hid
    rw [hacc, hissued]
    refine ⟨fun hmem => ?_, claim, List.mem_append_right _ (List.mem_singleton.2 rfl), rfl⟩
    obtain ⟨c, hc, hcid⟩ := h.known _ hmem
    exact (hord.last hc).2 hcid
  · rw [hissued, hacc]
    refine List.pairwise_append.2 ⟨h.apart, List.pairwise_singleton _ _, fun c hc c' hc' => ?_⟩
    rw [List.mem_singleton] at hc'
    subst hc'
    exact hearlier c hc
  · intro c hc
    rw [hissued] at hc ⊢
    rw [hacc]
    rcases List.mem_append.1 hc with hc | hc
    · rcases hearlier c hc with hdone | hle
      · exact .inl hdone
      · exact .inr (.inl ⟨claim, List.mem_append_right _ (List.mem_singleton.2 rfl), hle⟩)
    · rw [List.mem_singleton] at hc
      subst hc
      exact .inr (.inr ⟨hheld, hexpiry⟩)

/-- **The book after a record** is accepted under the claim that is held. -/
theorem ClaimBook.accepted {claimId : DurableRecordId} {item : SchedulerCancelDisposition}
    (h : ClaimBook kind key history d) (hout : ClaimsOutstanding kind key history d)
    (hclaim : kind.claimId d = some claimId) (hrecorded : kind.Recorded d item) :
    ClaimBook kind key (history ++ [.accepted kind key claimId]) item ∧
      ClaimsOutstanding kind key (history ++ [.accepted kind key claimId]) item := by
  have hissued : issuedClaims kind key (history ++ [.accepted kind key claimId]) =
      issuedClaims kind key history := by
    rw [issuedClaims_append]
    exact List.append_nil _
  have hacc : acceptedClaims kind key (history ++ [.accepted kind key claimId]) =
      acceptedClaims kind key history ++ [claimId] := by
    rw [acceptedClaims_append, CancelLabel.acceptedFor, if_pos ⟨rfl, rfl⟩]
    rfl
  obtain ⟨hnew, c₀, hc₀, hid₀⟩ := h.held claimId hclaim
  refine ⟨⟨?_, ?_, ?_, ?_, ?_, hrecorded.valid.claimsSound⟩, ?_⟩
  · rw [hacc, List.length_append, hrecorded.count, h.count]
    rfl
  · rw [hacc]
    refine List.nodup_append.2 ⟨h.once, List.nodup_singleton _, fun id hid id' hid' heq => ?_⟩
    rw [List.mem_singleton] at hid'
    subst hid' heq
    exact hnew hid
  · intro id hid
    rw [hacc] at hid
    rw [hissued]
    rcases List.mem_append.1 hid with hid | hid
    · exact h.known id hid
    · rw [List.mem_singleton] at hid
      subst hid
      exact ⟨c₀, hc₀, hid₀⟩
  · intro id hid
    rw [hrecorded.unclaimed] at hid
    cases hid
  · rw [hissued, hacc]
    exact h.apart.imp fun hpair => hpair.imp_left fun hmem => List.mem_append_left _ hmem
  · intro c hc
    rw [hissued] at hc ⊢
    rw [hacc]
    rcases hout c hc with hdone | hexpired | ⟨hid, _⟩
    · exact .inl (List.mem_append_left _ hdone)
    · exact .inr (.inl hexpired)
    · rw [hclaim] at hid
      injection hid with hid
      exact .inl (List.mem_append_right _ (List.mem_singleton.2 hid.symm))

/-- The book of a disposition whose fields of the kind are kept. -/
theorem ClaimsKept.transfer (h : ClaimsKept kind key history (.pending d))
    (hcnt : kind.count d' = kind.count d) (hclaim : kind.claimId d' = kind.claimId d)
    (hexpires : kind.expiresAt d' = kind.expiresAt d) (hsound : d'.ClaimsSound) :
    ClaimsKept kind key history (.of complete (some d')) := by
  obtain ⟨hbook, hout⟩ := h
  refine claimsKept_of ⟨hcnt.trans hbook.count, hbook.once, hbook.known, ?_, hbook.apart, hsound⟩ ?_
  · rw [hclaim]
    exact hbook.held
  · unfold ClaimsOutstanding
    rw [hclaim, hexpires]
    exact hout

/-- **Every step keeps the book.** -/
theorem ClaimsKept.step (h : ClaimsKept kind key history view)
    (hstep : IdentityStep key view label view') (hord : CancelOrderly (history ++ [label])) :
    ClaimsKept kind key (history ++ [label]) view' := by
  -- a label without a claim of this identity and kind leaves the lists of claims alone
  have hlists : label.issuedFor kind key = none → label.acceptedFor kind key = none →
      ∀ view, ClaimsKept kind key history view → ClaimsKept kind key (history ++ [label]) view := by
    intro hissued hacc view hview
    refine hview.congr ?_ ?_
    · rw [issuedClaims_append, hissued]
      exact List.append_nil _
    · rw [acceptedClaims_append, hacc]
      exact List.append_nil _
  have hquiet : ¬ label.Concerns key → ∀ view, ClaimsKept kind key history view →
      ClaimsKept kind key (history ++ [label]) view := by
    intro hnot
    obtain ⟨hissued, hacc⟩ := CancelLabel.not_concerns kind hnot
    exact hlists hissued hacc
  cases hstep with
  | stays hnot => exact hquiet hnot _ h
  | closes hnot => exact hquiet hnot _ h.1
  | superseded hnot =>
    refine hquiet hnot _ ?_
    refine h.1.dropped ?_ ?_ ⟨rfl, rfl⟩
    · cases kind <;> rfl
    · cases kind <;> rfl
  | appears hnot complete d hval hunc hcnt =>
    obtain ⟨hbook, hout⟩ := h.appears hunc (hcnt kind) hval.claimsSound
    exact hquiet hnot _ (claimsKept_of hbook hout)
  | reinstated hnot complete d d' href hunc hcnt hval hsound =>
    refine hquiet hnot _ (claimsKept_of (h.1.dropped (hunc kind) (hcnt kind) hsound) ?_)
    intro c hc
    rcases h.2 c hc with hdone | hexpired | ⟨hid, _⟩
    · exact .inl hdone
    · exact .inr (.inl hexpired)
    · have hclaimable := hval.claimsSound.claimable kind (by rw [hid]; exact nofun)
      rw [href] at hclaimable
      cases kind <;> cases hclaimable
  | issued kind' complete d claim hval hdue hexpires =>
    by_cases hkind : kind' = kind
    · subst hkind
      obtain ⟨hbook, hout⟩ := h.1.issued h.2 hord hdue hexpires
      exact claimsKept_of hbook hout
    · have hother := ClaimKind.claimed_other (d := d) hkind claim.provider claim.claimId
        claim.claimedAt claim.expiresAt
      refine hlists (if_neg fun heq => hkind heq.1) rfl _ ?_
      exact h.transfer (ClaimKind.claimed_count ..) hother.1 hother.2
        (ClaimKind.claimed_sound hval.claimsSound hdue hexpires)
  | accepted kind' complete d item claimId hval hclaim hrecorded =>
    by_cases hkind : kind' = kind
    · subst hkind
      obtain ⟨hbook, hout⟩ := h.1.accepted h.2 hclaim hrecorded
      exact claimsKept_of hbook hout
    · obtain ⟨hcnt, hid, hexp⟩ := hrecorded.others kind (Ne.symm hkind)
      refine hlists rfl (if_neg fun heq => hkind heq.1) _ ?_
      exact h.transfer hcnt hid hexp hrecorded.valid.claimsSound

/-- The states a disposition never leaves. -/
def SchedulerCancelDispositionState.final (state : SchedulerCancelDispositionState) : Bool :=
  [.canceled, .terminal, .notFound, .exhausted].contains state

/-- There is nothing to claim in a final state. -/
theorem ClaimKind.claimable_of_final (kind : ClaimKind) (state : SchedulerCancelDispositionState)
    (h : state.final = true) : kind.claimable state = false := by
  cases kind <;> cases state <;> first | rfl | exact absurd h (by decide)

/-- A final disposition without claims is as it is without them. -/
theorem SchedulerCancelDisposition.ClaimsSound.unclaimed_eq (h : d.ClaimsSound)
    (hfinal : d.state.final = true) : d.unclaimed = d := by
  obtain ⟨h₁, h₂, h₃⟩ :=
    validateClaim_none h.attempt (ClaimKind.claimable_of_final .attempt _ hfinal)
  obtain ⟨h₄, h₅, h₆⟩ :=
    validateClaim_none h.confirmation (ClaimKind.claimable_of_final .confirmation _ hfinal)
  cases d
  simp only at h₁ h₂ h₃ h₄ h₅ h₆
  subst h₁ h₂ h₃ h₄ h₅ h₆
  rfl

/-- **A final disposition stays.** -/
theorem IdentityStep.final (hstep : IdentityStep key view label view')
    (hd : view.disposition = some d) (hsound : d.ClaimsSound) (hfinal : d.state.final = true) :
    view'.disposition = some d := by
  cases hstep with
  | stays => exact hd
  | closes => exact hd
  | superseded =>
    injection hd with hd
    subst hd
    exact congrArg some (hsound.unclaimed_eq hfinal)
  | appears => cases hd
  | reinstated hnot complete d' d'' href =>
    injection hd with hd
    subst hd
    rw [href] at hfinal
    cases hfinal
  | issued kind' complete d' claim hval hdue =>
    injection hd with hd
    subst hd
    have hclaimable := (Bool.and_eq_true_iff.1 (Bool.and_eq_true_iff.1 hdue).1).1
    rw [kind'.claimable_of_final _ hfinal] at hclaimable
    cases hclaimable
  | accepted kind' complete d' item claimId hval hclaim =>
    injection hd with hd
    subst hd
    have hclaimable := hsound.claimable kind' (by rw [hclaim]; exact nofun)
    rw [kind'.claimable_of_final _ hfinal] at hclaimable
    cases hclaimable

end

/-! ### Runs -/

/-- The claims of an identity that are neither expired nor recorded at a time. -/
def liveClaims (kind : ClaimKind) (key : CancelKey) (history : List CancelLabel) (time : Time) :
    List SchedulerCancelClaim :=
  (issuedClaims kind key history).filter fun c =>
    decide (c.claimedAt ≤ time) && decide (time < c.expiresAt) &&
      !(acceptedClaims kind key history).contains c.claimId

/-- Two live claims of one kind would contradict the book. -/
theorem ClaimBook.live_le_one {kind : ClaimKind} {key : CancelKey} {history : List CancelLabel}
    {d : SchedulerCancelDisposition} (h : ClaimBook kind key history d) (time : Time) :
    (liveClaims kind key history time).length ≤ 1 := by
  have hpairs : (liveClaims kind key history time).Pairwise fun c c' =>
      c.claimId ∈ acceptedClaims kind key history ∨ c.expiresAt ≤ c'.claimedAt :=
    h.apart.sublist List.filter_sublist
  rcases hlive : liveClaims kind key history time with _ | ⟨c, _ | ⟨c', _⟩⟩
  · exact Nat.zero_le _
  · exact Nat.le_refl _
  · have hmem : ∀ x ∈ liveClaims kind key history time, x.claimedAt ≤ time ∧ time < x.expiresAt ∧
        x.claimId ∉ acceptedClaims kind key history := by
      intro x hx
      have hx' := (List.mem_filter.1 hx).2
      simpa [and_assoc] using hx'
    rw [hlive] at hpairs hmem
    obtain ⟨_, hexpires, hnot⟩ := hmem c (.head _)
    obtain ⟨hmade, _, _⟩ := hmem c' (.tail _ (.head _))
    rcases (List.pairwise_cons.1 hpairs).1 c' (.head _) with hdone | hle
    · exact absurd hdone hnot
    · have hlt : c'.claimedAt < c'.claimedAt := lt_of_le_of_lt hmade (lt_of_lt_of_le hexpires hle)
      exact absurd hlt (lt_irrefl _)

/-- What has been done so far, and the store. -/
structure CancelConfig where
  history : List CancelLabel
  store : Store

section

variable [Platform] {a b : CancelConfig} {key : CancelKey} {d : SchedulerCancelDisposition}

/-- The configuration after a call that ran to its end. -/
def CancelConfig.after [Entropy] (a : CancelConfig) (call : CancelCall) (v : Supply) :
    CancelConfig :=
  ⟨a.history ++ [call.did a.store v], (call.prog.run a.store v).store⟩

/-- One call of some worker. -/
def CancelConfig.Step (a b : CancelConfig) : Prop :=
  ∃ (_ : Entropy) (call : CancelCall) (v : Supply), b = a.after call v ∧ CancelOrderly b.history

/-- The invariant of a run: the files of a job are apart, and every book is kept. -/
structure CancelConfig.Kept (a : CancelConfig) : Prop where
  apart : CancelApart a.store
  books : ∀ kind key, ClaimsKept kind key a.history (identityView a.store key)

omit [Platform] in
theorem NoCancellation.kept {s : Store} (h : NoCancellation s) : CancelConfig.Kept ⟨[], s⟩ := by
  refine ⟨fun cluster jobId _ => (h cluster jobId).1, fun kind key => ?_⟩
  have hview : identityView s key = .absent := by
    simp only [identityView, (h key.cluster key.jobId).1, (h key.cluster key.jobId).2]
  show ClaimsKept kind key [] (identityView s key)
  rw [hview]
  exact ⟨rfl, rfl⟩

theorem CancelConfig.Kept.step (h : a.Kept) (hstep : a.Step b) : b.Kept := by
  obtain ⟨_, call, v, rfl, hord⟩ := hstep
  have hwrite := call.write_of_run a.store v
  exact ⟨hwrite.apart h.apart, fun kind key =>
    (h.books kind key).step (hwrite.identity h.apart key) hord⟩

theorem CancelConfig.Kept.steps (h : a.Kept) (hrun : Relation.ReflTransGen CancelConfig.Step a b) :
    b.Kept := by
  induction hrun with
  | refl => exact h
  | tail _ hstep ih => exact ih.step hstep

omit [Platform] in
/-- The book of an identity that has a disposition. -/
theorem CancelConfig.Kept.book (h : a.Kept) (kind : ClaimKind)
    (hd : (identityView a.store key).disposition = some d) : ClaimBook kind key a.history d := by
  have hkept := h.books kind key
  cases hview : identityView a.store key with
  | absent =>
    rw [hview] at hd
    cases hd
  | pending =>
    rw [hview] at hd hkept
    injection hd with hd
    exact hd ▸ hkept.1
  | completed =>
    rw [hview] at hd hkept
    injection hd with hd
    exact hd ▸ hkept

/-- **A final disposition stays**, in whatever is reached later. -/
theorem CancelConfig.Kept.final (h : a.Kept) (hd : (identityView a.store key).disposition = some d)
    (hfinal : d.state.final = true) (hrun : Relation.ReflTransGen CancelConfig.Step a b) :
    (identityView b.store key).disposition = some d := by
  induction hrun with
  | refl => exact hd
  | @tail b c hrun hstep ih =>
    obtain ⟨_, call, v, rfl, _⟩ := hstep
    have hkept := h.steps hrun
    exact ((call.write_of_run b.store v).identity hkept.apart key).final ih
      (hkept.book .attempt ih).sound hfinal

/-- Claims of an identity are exclusive and counted once. -/
structure ClaimsExclusive (a : CancelConfig) (key : CancelKey) : Prop where
  /-- At no time are two claims of a kind both unexpired and unrecorded. -/
  exclusive : ∀ kind time, (liveClaims kind key a.history time).length ≤ 1
  /-- A claim is held only in a state that may be claimed. -/
  claimable : ∀ kind d, (identityView a.store key).disposition = some d →
    ClaimKind.claimId kind d ≠ none → kind.claimable d.state = true
  /-- Each claim is recorded at most once. -/
  once : ∀ kind, (acceptedClaims kind key a.history).Nodup
  /-- The counters count the accepted records. -/
  counted : ∀ kind d, (identityView a.store key).disposition = some d →
    ClaimKind.count kind d = (acceptedClaims kind key a.history).length
  /-- A final disposition never changes again. -/
  final : ∀ d, (identityView a.store key).disposition = some d → d.state.final = true →
    ∀ b, Relation.ReflTransGen CancelConfig.Step a b →
      (identityView b.store key).disposition = some d

/-- **Exclusive claims, counted once**, in every run of the scheduler cancellation
calls by any number of workers. -/
theorem cancel_claims_exclusive_of_run {s : Store} {a : CancelConfig} (hs : NoCancellation s)
    (hrun : Relation.ReflTransGen CancelConfig.Step ⟨[], s⟩ a) (key : CancelKey) :
    ClaimsExclusive a key := by
  have hkept := hs.kept.steps hrun
  refine ⟨fun kind time => ?_, fun kind d hd hclaim => ?_, fun kind => ?_, fun kind d hd => ?_,
    fun d hd hfinal b hlater => hkept.final hd hfinal hlater⟩
  · cases hview : identityView a.store key with
    | absent =>
      have hnone := hkept.books kind key
      rw [hview] at hnone
      rw [liveClaims, hnone.1]
      exact Nat.zero_le _
    | pending | completed => exact (hkept.book kind (by rw [hview]; rfl)).live_le_one time
  · exact (hkept.book kind hd).sound.claimable kind hclaim
  · cases hview : identityView a.store key with
    | absent =>
      have hnone := hkept.books kind key
      rw [hview] at hnone
      rw [hnone.2]
      exact List.nodup_nil
    | pending | completed => exact (hkept.book kind (by rw [hview]; rfl)).once
  · exact (hkept.book kind hd).count

/-- The configuration after a list of calls that ran to their end. -/
def CancelConfig.afterCalls [Entropy] (v : Supply) (a : CancelConfig) (calls : List CancelCall) :
    CancelConfig :=
  calls.foldl (fun a call => a.after call v) a

theorem CancelConfig.history_afterCalls [Entropy] (v : Supply) (calls : List CancelCall)
    (a : CancelConfig) : ∃ more, (a.afterCalls v calls).history = a.history ++ more := by
  induction calls generalizing a with
  | nil => exact ⟨[], (List.append_nil _).symm⟩
  | cons call calls ih =>
    obtain ⟨more, hmore⟩ := ih (a.after call v)
    refine ⟨call.did a.store v :: more, ?_⟩
    have happend : (a.after call v).history ++ more =
        a.history ++ call.did a.store v :: more := List.append_assoc ..
    exact hmore.trans happend

/-- A list of calls is a run, when its claims are in order. -/
theorem CancelConfig.run_afterCalls [Entropy] (v : Supply) (calls : List CancelCall)
    (a : CancelConfig) (hord : CancelOrderly (a.afterCalls v calls).history) :
    Relation.ReflTransGen CancelConfig.Step a (a.afterCalls v calls) := by
  induction calls generalizing a with
  | nil => exact .refl
  | cons call calls ih =>
    obtain ⟨more, hmore⟩ := CancelConfig.history_afterCalls v calls (a.after call v)
    have hfirst : CancelOrderly (a.after call v).history := by
      have hall : CancelOrderly ((a.after call v).history ++ more) := hmore ▸ hord
      exact (List.pairwise_append.1 hall).1
    exact .head ⟨_, call, v, rfl, hfirst⟩ (ih (a.after call v) hord)

end

/-- A cancellation that is attempted, confirmed and done. -/
def sampleCancelCalls : List CancelCall :=
  sampleCancelRequest ++ [.claimAttempt sampleJob.jobId "ares" "77" "slurm" 30 none,
      .recordAttempt sampleJob.jobId "ares" "77" "slurm"
        ⟨"cancelclaim_00000000000000000000000000000000", by decide⟩ true none 3 1 none,
      .claimConfirmation sampleJob.jobId "ares" "77" "slurm" 30 none,
      .recordObservation sampleJob.jobId "ares" "77" "slurm"
        ⟨"confirmclaim_00000000000000000000000000000000", by decide⟩ .canceled false none 3 1 none]

/-- The configuration at the end of the sample. -/
def sampleCancelEnd : CancelConfig :=
  letI := samplePlatform
  letI := sampleEntropy
  CancelConfig.afterCalls sampleSupply ⟨[], sampleCancelQueue⟩ sampleCancelCalls

/-- The sample is canceled after one attempt and one confirmation, and its claims are
exclusive. -/
theorem cancel_claims_exclusive_of_run_sample :
    ((identityView sampleCancelEnd.store sampleCancelKey).disposition.map fun d =>
        (d.state, d.attempts, d.confirmationAttempts)) = some (.canceled, 1, 1) ∧
      @ClaimsExclusive samplePlatform sampleCancelEnd sampleCancelKey := by
  let := samplePlatform
  let := sampleEntropy
  refine ⟨by decide +kernel, ?_⟩
  refine cancel_claims_exclusive_of_run noCancellation_sampleCancelQueue ?_ sampleCancelKey
  exact CancelConfig.run_afterCalls sampleSupply sampleCancelCalls ⟨[], sampleCancelQueue⟩
    (by decide +kernel)

end ClioQueue
