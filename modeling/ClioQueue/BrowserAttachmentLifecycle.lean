/-
# The life of browser attachments

Every run of the attachment operations, the teardown intent and the generic update
on one gateway session.  The slot of the session moves along the lifecycle
(`SlotStep`), a published proxy belongs to the attachment of the slot
(`ProxyOwned`), and a session that is committed to teardown or closed stays so and
starts no attachment (`Retires`).  The slot remembers one identity only: an
identity that was revoked before the one it shows is accepted again
(`attachment_reused_after_revocation`).  Along the runs that never prepare such an
identity the whole lifecycle holds (`attachment_lifecycle_of_run`).
-/

import ClioQueue.BrowserAttachments
import ClioQueue.ReplayFootprint

namespace ClioQueue

open Durable Durable.Prog Durable.Files

/-! ### What a session shows -/

section

variable [Platform]

/-- The attachment in the slot. -/
def GatewaySession.slot (session : GatewaySession) : Option BrowserAttachmentRecord :=
  BrowserAttachmentRecord.modelValidate (Dict.get session.gateway "browser_attachment")

/-- The published proxy. -/
def GatewaySession.proxy (session : GatewaySession) : Json :=
  ((Dict.get session.gateway "transport").obj?.map fun transport =>
    Dict.get transport "browser_proxy").getD .null

/-- The teardown intent. -/
def GatewaySession.teardown (session : GatewaySession) : Json :=
  Dict.get session.gateway "teardown_intent"

/-- A published proxy belongs to the attachment of the slot, which is active or on its way
out. -/
def GatewaySession.ProxyOwned (session : GatewaySession) : Prop :=
  session.proxy = .null ∨ ∃ a proxy, session.slot = some a ∧ session.proxy = .obj proxy ∧
    Dict.get proxy "attachment_id" = .str a.attachmentId ∧
    (a.state = .active ∨ a.state = .revoking ∨ a.state = .failed)

/-- The session is committed to teardown, or closed. -/
def GatewaySession.Retired (session : GatewaySession) : Prop :=
  session.teardown ≠ .null ∨ session.state = .closed

/-- The moves that the operations allow. -/
inductive BrowserAttachmentState.Next : BrowserAttachmentState → BrowserAttachmentState → Prop
  | publish : Next .starting .active
  | beginRevoke {x : BrowserAttachmentState} (h : x = .starting ∨ x = .active ∨ x = .failed) :
      Next x .revoking
  | fail : Next .revoking .failed
  | revoke {x : BrowserAttachmentState} (h : x = .revoking ∨ x = .failed) : Next x .revoked

/-- What one call does to the slot: nothing, a reservation of a free slot for the identity that
the call names, or one move of the attachment that it holds. -/
inductive SlotStep (reserved : Option String) (a b : Option BrowserAttachmentRecord) : Prop
  | keep (h : b = a)
  | reserve {new : BrowserAttachmentRecord} (hb : b = some new)
      (hid : reserved = some new.attachmentId) (hnew : new.state = .starting)
      (ha : ∀ old, a = some old → old.state = .revoked ∧ old.attachmentId ≠ new.attachmentId)
  | move {old new : BrowserAttachmentRecord} (ha : a = some old) (hb : b = some new)
      (hid : new.attachmentId = old.attachmentId) (hnext : old.state.Next new.state)

/-- A retired session stays retired, under the same intent, and its slot enters neither
`starting` nor `active`. -/
structure Retires (old new : GatewaySession) : Prop where
  teardown : old.teardown ≠ .null → new.teardown = old.teardown
  closed : old.state = .closed → new.state = .closed
  quiet : old.Retired → ∀ a, new.slot = some a → a.state = .starting ∨ a.state = .active →
    old.slot = some a

/-- One step of a session. -/
structure SessionStep (reserved : Option String) (old new : GatewaySession) : Prop where
  sessionId : new.sessionId = old.sessionId
  slot : SlotStep reserved old.slot new.slot
  proxy : old.ProxyOwned → new.ProxyOwned
  retires : Retires old new

variable {reserved : Option String} {old new session : GatewaySession}
  {a b attachment : BrowserAttachmentRecord}

theorem SessionStep.refl (session : GatewaySession) : SessionStep reserved session session :=
  ⟨rfl, .keep rfl, id, fun _ => rfl, id, fun _ _ h _ => h⟩

/-- A step that leaves the `gateway` document as it is and does not reopen the session. -/
theorem SessionStep.of_gateway (hid : new.sessionId = old.sessionId)
    (hgw : new.gateway = old.gateway) (hclosed : old.state = .closed → new.state = .closed) :
    SessionStep reserved old new := by
  have hslot : new.slot = old.slot := by rw [GatewaySession.slot, hgw]; rfl
  refine ⟨hid, .keep hslot, ?_, ?_, hclosed, fun _ a ha _ => hslot ▸ ha⟩
  · unfold GatewaySession.ProxyOwned GatewaySession.proxy
    rw [hslot, hgw]
    exact id
  · unfold GatewaySession.teardown
    rw [hgw]
    exact fun _ => rfl

/-! ### What the decisions establish -/

omit [Platform] in
theorem demand_ok {b : Bool} {message : String} {u : Unit} (h : demand b message = .ok u) :
    b = true := by
  unfold demand at h
  split at h
  · assumption
  · cases h

theorem browserAttachmentRecord_ok {found : Option BrowserAttachmentRecord}
    (h : browserAttachmentRecord session = .ok found) : session.slot = found := by
  unfold browserAttachmentRecord at h
  unfold GatewaySession.slot
  split at h
  · next hraw =>
      rw [hraw, ← Except.ok.inj h]
      rfl
  · split at h
    · cases h
    · next a ha =>
        rw [ha, ← Except.ok.inj h]

theorem requiredBrowserAttachmentRecord_ok (h : requiredBrowserAttachmentRecord session = .ok a) :
    session.slot = some a := by
  obtain ⟨found, hfound, h⟩ := except_bind_ok h
  rw [browserAttachmentRecord_ok hfound]
  rcases found with _ | _
  · cases h
  · rw [Except.ok.inj h]

section

omit [Platform]

/-- The proxy of a session whose `transport` was read. -/
theorem proxy_of_transport {transport : Dict}
    (h : gatewayMapping session.gateway "transport" = .ok transport) :
    session.proxy = transport.get "browser_proxy" := by
  unfold gatewayMapping at h
  unfold GatewaySession.proxy
  split at h
  · next hraw =>
      rw [hraw, ← Except.ok.inj h]
      rfl
  · next fields hraw =>
      rw [hraw, ← Except.ok.inj h]
      rfl
  · cases h

/-- What a session ready for an attachment is not. -/
theorem ready_ok {u : Unit} (h : requireBrowserAttachmentSessionReady session = .ok u) :
    session.state = .ready ∧ session.teardown = .null := by
  obtain ⟨_, _, h⟩ := except_bind_ok h
  obtain ⟨_, hstate, h⟩ := except_bind_ok h
  obtain ⟨_, hteardown, _⟩ := except_bind_ok h
  exact ⟨of_decide_eq_true (demand_ok hstate), of_decide_eq_true (demand_ok hteardown)⟩

theorem not_retired_of_ready {u : Unit} (h : requireBrowserAttachmentSessionReady session = .ok u) :
    ¬ session.Retired := by
  obtain ⟨hstate, hteardown⟩ := ready_ok h
  rintro (hnot | hclosed)
  · exact hnot hteardown
  · rw [hstate] at hclosed
    cases hclosed

theorem requireSame_ok {u : Unit} (h : requireSameBrowserAttachment a b = .ok u) :
    b.attachmentId = a.attachmentId := by
  obtain ⟨_, hsame, _⟩ := except_bind_ok h
  have hcapability := of_decide_eq_true (demand_ok hsame)
  exact (congrArg BrowserAttachmentRecord.attachmentId hcapability).symm

end

theorem slot_of_document {gateway metadata : Dict} {updatedAt : Time} (hval : b.valid = true)
    (h : gateway.get "browser_attachment" = .obj b.document) :
    ({ session with gateway, metadata, updatedAt } : GatewaySession).slot = some b := by
  show BrowserAttachmentRecord.modelValidate (gateway.get "browser_attachment") = some b
  rw [h]
  show (BrowserAttachmentRecord.parse b.document).filter BrowserAttachmentRecord.valid = some b
  rw [BrowserAttachmentRecord.parse_document, Option.filter_some, if_pos hval]

theorem valid_of_slot (h : session.slot = some a) : a.valid = true := by
  unfold GatewaySession.slot BrowserAttachmentRecord.modelValidate at h
  exact (Option.filter_eq_some_iff.1 h).2

omit [Platform] in
/-- A slot that can be reserved for an identity is empty, or holds another one that is revoked. -/
theorem requireFreeSlot_ok {existing : Option BrowserAttachmentRecord} {attachmentId : String}
    {u : Unit} (h : requireFreeSlot existing attachmentId = .ok u) :
    ∀ a, existing = some a → a.state = .revoked ∧ a.attachmentId ≠ attachmentId := by
  rintro a rfl
  obtain ⟨_, hrev, hother⟩ := except_bind_ok h
  exact ⟨of_decide_eq_true (demand_ok hrev), of_decide_eq_true (demand_ok hother)⟩

theorem prepareAttachment_free {gateway intent : Dict}
    (h : prepareAttachment attachment intent session = .ok gateway) :
    ∀ a, session.slot = some a → a.state = .revoked ∧ a.attachmentId ≠ attachment.attachmentId := by
  obtain ⟨_, _, h⟩ := except_bind_ok h
  obtain ⟨_, hexist, h⟩ := except_bind_ok h
  obtain ⟨_, hfree, _⟩ := except_bind_ok h
  rw [browserAttachmentRecord_ok hexist]
  exact requireFreeSlot_ok hfree

/-- **A reservation.** -/
theorem prepareAttachment_step {gateway intent metadata : Dict} {updatedAt : Time}
    (hval : attachment.valid = true) (hstarting : attachment.state = .starting)
    (h : prepareAttachment attachment intent session = .ok gateway) :
    SessionStep (some attachment.attachmentId) session
      { session with gateway, metadata, updatedAt } := by
  have hfree := prepareAttachment_free h
  obtain ⟨_, hready, h⟩ := except_bind_ok h
  obtain ⟨_, _, h⟩ := except_bind_ok h
  obtain ⟨_, _, h⟩ := except_bind_ok h
  obtain ⟨_, htransport, h⟩ := except_bind_ok h
  obtain ⟨_, hproxy, h⟩ := except_bind_ok h
  obtain ⟨_, _, h⟩ := except_bind_ok h
  obtain ⟨_, _, h⟩ := except_bind_ok h
  have hgw := (Except.ok.inj h).symm
  have hnull : session.proxy = .null := by
    rw [proxy_of_transport htransport]
    exact of_decide_eq_true (demand_ok hproxy)
  have hnew : ({ session with gateway, metadata, updatedAt } : GatewaySession).slot =
      some attachment := slot_of_document hval (by simp [hgw, Dict.get_set])
  refine ⟨rfl, .reserve hnew rfl hstarting hfree, fun _ => .inl ?_, ?_⟩
  · unfold GatewaySession.proxy at hnull ⊢
    simp only [hgw, Dict.get_set]
    exact hnull
  · refine ⟨fun _ => ?_, id, fun hretd => absurd hretd (not_retired_of_ready hready)⟩
    simp [GatewaySession.teardown, hgw, Dict.get_set]

/-- **A publication.** -/
theorem completeAttachment_step {gateway intent proxy metadata : Dict} {updatedAt : Time}
    (hval : attachment.valid = true) (hactive : attachment.state = .active)
    (hproxy : Dict.get proxy "attachment_id" = .str attachment.attachmentId)
    (h : completeAttachment attachment proxy intent session = .ok (some gateway)) :
    SessionStep reserved session { session with gateway, metadata, updatedAt } := by
  obtain ⟨_, hready, h⟩ := except_bind_ok h
  obtain ⟨current, hcur, h⟩ := except_bind_ok h
  split at h
  · cases h
  obtain ⟨_, hstarting, h⟩ := except_bind_ok h
  obtain ⟨_, hsame, h⟩ := except_bind_ok h
  obtain ⟨_, _, h⟩ := except_bind_ok h
  split at h
  · cases h
  obtain ⟨_, _, h⟩ := except_bind_ok h
  obtain ⟨_, _, h⟩ := except_bind_ok h
  obtain ⟨_, _, h⟩ := except_bind_ok h
  obtain ⟨_, _, h⟩ := except_bind_ok h
  have hgw := (Option.some.inj (Except.ok.inj h)).symm
  have hslot : session.slot = some current := requiredBrowserAttachmentRecord_ok hcur
  have hnew : ({ session with gateway, metadata, updatedAt } : GatewaySession).slot =
      some attachment := slot_of_document hval (by simp [hgw, Dict.get_set])
  have hstarting : current.state = .starting := of_decide_eq_true (demand_ok hstarting)
  refine ⟨rfl, .move hslot hnew (requireSame_ok hsame) ?_, fun _ => .inr ?_, ?_⟩
  · rw [hstarting, hactive]
    exact .publish
  · refine ⟨attachment, proxy, hnew, ?_, hproxy, .inl hactive⟩
    simp [GatewaySession.proxy, hgw, Dict.get_set, Json.obj?]
  · refine ⟨fun _ => ?_, id, fun hretd => absurd hretd (not_retired_of_ready hready)⟩
    simp [GatewaySession.teardown, hgw, Dict.get_set]

/-- A slot that was not revoked has no revocation time. -/
theorem revokedAt_eq_none (hval : a.valid = true) (hstate : a.state ≠ .revoked) :
    a.revokedAt = none := by
  unfold BrowserAttachmentRecord.valid at hval
  rw [Bool.and_eq_true, if_neg hstate] at hval
  exact Option.isNone_iff_eq_none.1 hval.2

theorem valid_revoking (hval : a.valid = true) (hstate : a.state ≠ .revoked) :
    ({ a with state := .revoking } : BrowserAttachmentRecord).valid = true := by
  have hnone := revokedAt_eq_none hval hstate
  unfold BrowserAttachmentRecord.valid at hval ⊢
  rw [Bool.and_eq_true] at hval ⊢
  exact ⟨hval.1, by simp [hnone]⟩

/-- The session on its way out: the proxy, if there is one, stays with the slot. -/
theorem ProxyOwned_of_leaving (h : session.ProxyOwned) (ha : session.slot = some a)
    (hb : new.slot = some b) (hid : b.attachmentId = a.attachmentId)
    (hstate : b.state = .revoking ∨ b.state = .failed) (hproxy : new.proxy = session.proxy) :
    new.ProxyOwned := by
  rcases h with hnull | ⟨c, proxy, hc, hpublished, howner, _⟩
  · exact .inl (hproxy.trans hnull)
  · rw [ha] at hc
    cases hc
    refine .inr ⟨b, proxy, hb, hproxy.trans hpublished, ?_, .inr hstate⟩
    rw [howner, hid]

/-- **The begin of a revocation.** -/
theorem beginRevoke_step {gateway metadata : Dict} {updatedAt : Time} {attachmentId : String}
    (h : beginRevoke attachmentId session = .ok (some gateway)) :
    SessionStep reserved session { session with gateway, metadata, updatedAt } := by
  obtain ⟨current, hcur, h⟩ := except_bind_ok h
  obtain ⟨_, _, h⟩ := except_bind_ok h
  split at h
  · cases h
  next hopen =>
  have hgw := (Option.some.inj (Except.ok.inj h)).symm
  have hslot : session.slot = some current := requiredBrowserAttachmentRecord_ok hcur
  rw [not_or] at hopen
  have hnew : ({ session with gateway, metadata, updatedAt } : GatewaySession).slot =
      some { current with state := .revoking } :=
    slot_of_document (valid_revoking (valid_of_slot hslot) hopen.2) (by simp [hgw, Dict.get_set])
  have hproxy : ({ session with gateway, metadata, updatedAt } : GatewaySession).proxy =
      session.proxy := by simp [GatewaySession.proxy, hgw, Dict.get_set]
  refine ⟨rfl, .move hslot hnew rfl (.beginRevoke ?_),
    fun hown => ProxyOwned_of_leaving hown hslot hnew rfl (.inl rfl) hproxy, ?_⟩
  · revert hopen
    cases current.state <;> simp
  · refine ⟨fun _ => ?_, id, fun _ b hb henter => ?_⟩
    · simp [GatewaySession.teardown, hgw, Dict.get_set]
    · rw [hnew] at hb
      cases hb
      rcases henter with henter | henter <;> cases henter

omit [Platform] in
/-- The document of a revocation: the slot is revoked and the proxy is gone. -/
theorem finishedRevocation_some {gateway absentIntent : Dict}
    (h : finishedRevocation attachment (some absentIntent) session = .ok gateway) :
    ∃ transport intents : Dict,
      gateway = ((Dict.set session.gateway "browser_attachment" (.obj attachment.document)).set
        "transport" (.obj (transport.pop "browser_proxy"))).set "ownership_intents"
          (.obj (intents.set "browser_proxy" (.obj absentIntent))) := by
  obtain ⟨transport, _, h⟩ := except_bind_ok h
  obtain ⟨_, _, h⟩ := except_bind_ok h
  obtain ⟨intents, _, h⟩ := except_bind_ok h
  obtain ⟨_, _, h⟩ := except_bind_ok h
  exact ⟨transport, intents, (Except.ok.inj h).symm⟩

/-- **The end of a revocation.** -/
theorem finishRevoke_step {gateway metadata : Dict} {absentIntent : Option Dict} {updatedAt : Time}
    (hval : attachment.valid = true)
    (hintent : attachment.state = .revoked ∧ absentIntent.isSome ∨
      attachment.state = .failed ∧ absentIntent = none)
    (h : finishRevoke attachment absentIntent session = .ok (some gateway)) :
    SessionStep reserved session { session with gateway, metadata, updatedAt } := by
  obtain ⟨current, hcur, h⟩ := except_bind_ok h
  obtain ⟨_, _, h⟩ := except_bind_ok h
  split at h
  · obtain ⟨_, _, h⟩ := except_bind_ok h
    cases h
  next hopen =>
  obtain ⟨_, hfrom, h⟩ := except_bind_ok h
  obtain ⟨_, hsame, h⟩ := except_bind_ok h
  obtain ⟨_, hfinished, h⟩ := except_bind_ok h
  cases Option.some.inj (Except.ok.inj h)
  have hslot : session.slot = some current := requiredBrowserAttachmentRecord_ok hcur
  have hid := requireSame_ok hsame
  have hfrom := demand_ok hfrom
  simp only [Bool.or_eq_true, Bool.and_eq_true, decide_eq_true_eq] at hfrom
  rcases hintent with ⟨hrev, hsome⟩ | ⟨hfail, rfl⟩
  · obtain ⟨intent, rfl⟩ := Option.isSome_iff_exists.1 hsome
    obtain ⟨_, _, hgw⟩ := finishedRevocation_some hfinished
    have hnew : ({ session with gateway, metadata, updatedAt } : GatewaySession).slot =
        some attachment := slot_of_document hval (by simp [hgw, Dict.get_set])
    refine ⟨rfl, .move hslot hnew hid ?_, fun _ => .inl ?_, ?_⟩
    · rw [hrev]
      exact .revoke (hfrom.imp id And.left)
    · simp [GatewaySession.proxy, hgw, Dict.get_set, Json.obj?, Dict.get_pop_self]
    · refine ⟨fun _ => ?_, id, fun _ b hb henter => ?_⟩
      · simp [GatewaySession.teardown, hgw, Dict.get_set]
      · rw [hnew] at hb
        cases hb
        rw [hrev] at henter
        rcases henter with henter | henter <;> cases henter
  · have hgw : gateway = Dict.set session.gateway "browser_attachment" _ :=
      (Except.ok.inj hfinished).symm
    have hnew : ({ session with gateway, metadata, updatedAt } : GatewaySession).slot =
        some attachment := slot_of_document hval (by simp [hgw, Dict.get_set])
    have hproxy : ({ session with gateway, metadata, updatedAt } : GatewaySession).proxy =
        session.proxy := by simp [GatewaySession.proxy, hgw, Dict.get_set]
    have hrevoking : current.state = .revoking := by
      refine hfrom.resolve_right fun hnot => ?_
      rw [hfail] at hnot
      cases hnot.2
    refine ⟨rfl, .move hslot hnew hid ?_,
      fun hown => ProxyOwned_of_leaving hown hslot hnew hid (.inr hfail) hproxy, ?_⟩
    · rw [hrevoking, hfail]
      exact .fail
    · refine ⟨fun _ => ?_, id, fun _ b hb henter => ?_⟩
      · simp [GatewaySession.teardown, hgw, Dict.get_set]
      · rw [hnew] at hb
        cases hb
        rw [hfail] at henter
        rcases henter with henter | henter <;> cases henter

/-- **The record of a teardown intent.** -/
theorem recordTeardown_step {gateway intent : Dict} {updatedAt : Time}
    (hnone : session.teardown = .null)
    (hgw : gateway = Dict.set session.gateway "teardown_intent" (.obj intent)) :
    SessionStep reserved session { session with gateway, updatedAt } := by
  have hslot : ({ session with gateway, updatedAt } : GatewaySession).slot = session.slot := by
    simp [GatewaySession.slot, hgw, Dict.get_set]
  refine ⟨rfl, .keep hslot, fun hown => ?_, fun hnot => absurd hnone hnot, id,
    fun _ a ha _ => hslot ▸ ha⟩
  unfold GatewaySession.ProxyOwned at hown ⊢
  rw [hslot]
  simpa [GatewaySession.proxy, hgw, Dict.get_set] using hown

/-- **A generic update** without a `gateway` field. -/
theorem update_step {update : GatewayUpdate} {updatedAt : Time} (hgw : update.gateway = none)
    (h : update.refusal session = none) :
    SessionStep reserved session (update.apply session updatedAt) := by
  refine .of_gateway rfl ?_ fun hclosed => ?_
  · show update.gateway.getD session.gateway = session.gateway
    rw [hgw]
    rfl
  · show update.state.getD session.state = .closed
    unfold GatewayUpdate.refusal at h
    split at h
    · cases h
    split at h
    · cases h
    split at h
    · cases h
    next hopen =>
    rcases hstate : update.state with _ | state
    · exact hclosed
    · rw [hclosed, hstate] at hopen
      simpa using hopen

/-! ### The operations -/

variable [Entropy] {sessionId : DurableRecordId} {s t : Store} {v : Supply}
  {Q : Post GatewaySession} {k : Op GatewaySession}
  {E : Post RelayError} {C : Store → Prop}

/-- The canonical session has made no step, or one. -/
def Stepped (reserved : Option String) (sessionId : DurableRecordId) (old : GatewaySession)
    (t : Store) : Prop :=
  ∃ new, t.read (.gatewaySession sessionId) = some new ∧ SessionStep reserved old new

omit [Entropy] in
/-- Files other than canonical sessions do not matter. -/
theorem Stepped.of_agree {A : Path → Prop} (h : Stepped reserved sessionId old s)
    (hst : Agree A s t) (hA : ¬ A (.gatewaySession sessionId)) : Stepped reserved sessionId old t := by
  obtain ⟨new, hnew, hstep⟩ := h
  exact ⟨new, (hst _ hA).trans hnew, hstep⟩

section

variable (hs : s.read (.gatewaySession sessionId) = some old)

include hs

omit [Entropy] in
theorem Stepped.same : Stepped reserved sessionId old s :=
  ⟨old, hs, .refl old⟩

/-- **Writing a session** that makes one step. -/
theorem wp_writeGatewaySession {Q : Post Unit} (hid : new.sessionId = sessionId)
    (hstep : SessionStep reserved old new) (hQ : ∀ t w, Stepped reserved sessionId old t → Q () t w) :
    wp (writeGatewaySession new) (Stepped reserved sessionId old) Q
      (fun _ t _ => Stepped reserved sessionId old t) s v := by
  unfold writeGatewaySession writeTransitionIntent
  simp only [wp_bind, wp_utcNow, wp_put]
  have hintent : Stepped reserved sessionId old
      (s.write (.intent (TransitionIntent.gatewaySync new.sessionId).key)
        (.gatewaySync new.sessionId)) :=
    (Stepped.same hs).of_agree (agree_write (A := fun p => ∃ key, p = .intent key)
      ⟨_, rfl⟩ s _) (by simp)
  refine ⟨hintent, ?_⟩
  rw [wp_putWithin]
  refine ⟨fun _ => ?_, fun _ => hintent⟩
  have hwritten : Stepped reserved sessionId old ((s.write
      (.intent (TransitionIntent.gatewaySync new.sessionId).key) (.gatewaySync new.sessionId)).write
        (.gatewaySession new.sessionId) new) := by
    subst hid
    exact ⟨new, read_write_self .., hstep⟩
  refine ⟨hwritten, ?_⟩
  refine (confined_syncGatewaySessionDerived new.sessionId).wp
    (fun t ht => hwritten.of_agree ht (by rintro ⟨⟩)) (fun _ t w ht => ?_)
    fun _ t _ ht => hwritten.of_agree ht (by rintro ⟨⟩)
  have hsynced := hwritten.of_agree ht (by rintro ⟨⟩)
  rw [wp_unlink]
  have hrem := hsynced.of_agree (agree_unlink (A := fun p => ∃ key, p = .intent key)
    (p := .intent (.gatewaySync new.sessionId)) ⟨_, rfl⟩ t) (by simp)
  exact ⟨hrem, hQ _ w hrem⟩

omit [Platform] [Entropy] in
theorem wp_getGatewaySession (hid : old.sessionId = sessionId) (hQ : Q old s v) :
    wp (getGatewaySession sessionId) C Q E s v := by
  unfold getGatewaySession
  rw [wp_bind, read_eq_look, wp_look, hs]
  simp only [hid, beq_self_eq_true, wp_bind, wp_require, wp_pure]
  exact ⟨fun _ => hQ, by rintro ⟨⟩⟩

/-- What every operation does before it looks at the session. -/
theorem wp_beforeSession
    (hk : ∀ t w, t.read (.gatewaySession sessionId) = some old → Leaves (Stepped reserved sessionId old)
      k t w) :
    Leaves (Stepped reserved sessionId old)
      (requireIndexMigrationComplete >>= fun _ => recoverPendingTransitions >>= fun _ => k)
      s v := by
  unfold Leaves
  rw [wp_bind]
  refine readOnly_requireIndexMigrationComplete.wp (fun _ w => ?_) fun _ _ => .same hs
  rw [wp_bind]
  exact confined_recoverPendingTransitions.wp
    (fun t ht => (Stepped.same hs).of_agree ht (fun h => h))
    (fun _ t w ht => hk t w ((ht (.gatewaySession sessionId) fun h => h).trans hs))
    fun _ t _ ht => (Stepped.same hs).of_agree ht (fun h => h)

/-- **A transition of the slot** whose decision is a step. -/
theorem wp_attachmentTransition {metadata : Dict}
    {decision : GatewaySession → Except RelayError (Option Dict)} (hid : old.sessionId = sessionId)
    (hdecision : ∀ gateway updatedAt, decision old = .ok (some gateway) → SessionStep reserved old
        { old with gateway, metadata := old.metadata.update metadata, updatedAt }) :
    Leaves (Stepped reserved sessionId old)
      (attachmentTransition sessionId metadata decision) s v := by
  refine wp_beforeSession hs fun t w ht => ?_
  unfold Leaves
  rw [wp_bind]
  refine wp_getGatewaySession ht hid ?_
  refine wp_ofExcept_then (fun decided hdec => ?_) fun _ _ => .same ht
  rcases decided with _ | gateway
  · exact (wp_pure _).2 (.same ht)
  · unfold writeBrowserAttachmentTransition
    simp only [wp_bind, wp_utcNow]
    refine wp_writeGatewaySession ht hid (hdecision gateway _ hdec) fun u w hu => ?_
    exact (wp_pure _).2 hu

end

omit [Entropy] in
omit [Platform] in
/-- What the arguments of `finish_gateway_browser_attachment_revoke` must agree on. -/
theorem wp_finishArguments {absentIntent : Option Dict} (hE : ∀ err, E err s v)
    (hk : (attachment.state = .revoked ∧ absentIntent.isSome ∨ attachment.state = .failed ∧ absentIntent = none) → wp k C Q E s v) :
    wp (require (attachment.state = .revoked || attachment.state = .failed)
      (.value "finished browser attachment must be revoked or failed") >>= fun _ =>
        (match attachment.state, absentIntent with
          | .revoked, none =>
            raise (.value "revoked browser attachment requires an absent proxy intent")
          | .revoked, some intent =>
            ofExcept
              (validateBrowserProxyIntent intent attachment.attachmentId (some "absent_verified"))
          | _, some _ =>
            raise (.value "failed browser attachment cannot claim proxy absence")
          | _, none => pure ()) >>= fun _ => k) C Q E s v := by
  refine wp_require_then (fun hstate => ?_) fun _ => hE _
  simp only [Bool.or_eq_true, decide_eq_true_eq] at hstate
  rw [wp_bind]
  rcases hstate with hstate | hstate
  · rw [hstate]
    rcases absentIntent with _ | intent
    · exact (wp_raise _).2 (hE _)
    · exact (wp_ofExcept _).2 ⟨fun _ _ => hk (.inl ⟨hstate, rfl⟩), fun _ _ => hE _⟩
  · rw [hstate]
    rcases absentIntent with _ | intent
    · exact (wp_pure _).2 (hk (.inr ⟨hstate, rfl⟩))
    · exact (wp_raise _).2 (hE _)

end

/-! ### Calls -/

section

variable [Platform]

/-- A call of one of the operations on a session; a generic update names no `gateway` field. -/
inductive AttachmentCall where
  | prepare (attachment : BrowserAttachment) (intent : Dict)
  | complete (attachment : BrowserAttachment) (proxy intent : Dict)
  | beginRevoke (attachmentId : String)
  | finishRevoke (attachment : BrowserAttachment) (absentIntent : Option Dict) (metadata : Dict)
  | prepareTeardown (cancelSchedulerJob : Bool)
  | update (change : {change : GatewayUpdate // change.gateway = none})

/-- What a call runs. -/
def AttachmentCall.prog [Entropy] (sessionId : DurableRecordId) :
    AttachmentCall → Op GatewaySession
  | .prepare attachment intent => prepareGatewayBrowserAttachment sessionId attachment intent
  | .complete attachment proxy intent =>
    completeGatewayBrowserAttachment sessionId attachment proxy intent
  | .beginRevoke attachmentId => beginGatewayBrowserAttachmentRevoke sessionId attachmentId
  | .finishRevoke attachment absentIntent metadata =>
    finishGatewayBrowserAttachmentRevoke sessionId attachment absentIntent metadata
  | .prepareTeardown cancelSchedulerJob => prepareGatewayTeardownIntent sessionId cancelSchedulerJob
  | .update change => updateGatewaySession sessionId change.1

/-- The identity that a call reserves the slot for. -/
def AttachmentCall.reserved : AttachmentCall → Option String
  | .prepare attachment _ => some attachment.1.attachmentId
  | _ => none

variable {sessionId : DurableRecordId} {old : GatewaySession} {s : Store} {v : Supply}

/-- **One call makes at most one step**, wherever it stops. -/
theorem AttachmentCall.wp_prog [Entropy] (call : AttachmentCall)
    (hs : s.read (.gatewaySession sessionId) = some old) (hid : old.sessionId = sessionId) :
    Leaves (Stepped call.reserved sessionId old) (call.prog sessionId) s v := by
  have hsame : ∀ reserved, Stepped reserved sessionId old s := fun _ => .same hs
  cases call with
  | prepare attachment intent =>
    show wp (prepareGatewayBrowserAttachment sessionId attachment intent) _ _ _ s v
    unfold prepareGatewayBrowserAttachment
    refine wp_require_then (fun hstate => ?_) fun _ => hsame _
    refine wp_ofExcept_then (fun _ _ => ?_) fun _ _ => hsame _
    refine wp_attachmentTransition hs hid fun gateway updatedAt hdec => ?_
    obtain ⟨_, hfound, hdec⟩ := except_bind_ok hdec
    cases Option.some.inj (Except.ok.inj hdec)
    exact prepareAttachment_step attachment.2 (of_decide_eq_true hstate) hfound
  | complete attachment proxy intent =>
    show wp (completeGatewayBrowserAttachment sessionId attachment proxy intent) _ _ _ s v
    unfold completeGatewayBrowserAttachment
    refine wp_require_then (fun hstate => ?_) fun _ => hsame _
    rw [Bool.and_eq_true] at hstate
    refine wp_ofExcept_then (fun _ hproxy => ?_) fun _ _ => hsame _
    refine wp_ofExcept_then (fun _ _ => ?_) fun _ _ => hsame _
    obtain ⟨_, howner, _⟩ := except_bind_ok hproxy
    exact wp_attachmentTransition hs hid fun gateway updatedAt hdec =>
      completeAttachment_step attachment.2 (of_decide_eq_true hstate.1)
        (of_decide_eq_true (demand_ok howner)) hdec
  | beginRevoke attachmentId =>
    show wp (beginGatewayBrowserAttachmentRevoke sessionId attachmentId) _ _ _ s v
    unfold beginGatewayBrowserAttachmentRevoke
    refine wp_require_then (fun _ => ?_) fun _ => hsame _
    exact wp_attachmentTransition hs hid fun gateway updatedAt hdec =>
      beginRevoke_step hdec
  | finishRevoke attachment absentIntent metadata =>
    show wp (finishGatewayBrowserAttachmentRevoke sessionId attachment absentIntent metadata)
      _ _ _ s v
    refine wp_finishArguments (fun _ => hsame _) fun hintent => ?_
    exact wp_attachmentTransition hs hid fun gateway updatedAt hdec =>
      finishRevoke_step attachment.2 hintent hdec
  | prepareTeardown cancelSchedulerJob =>
    show wp (prepareGatewayTeardownIntent sessionId cancelSchedulerJob) _ _ _ s v
    refine wp_beforeSession hs fun t w ht => ?_
    unfold Leaves
    rw [wp_bind]
    refine wp_getGatewaySession ht hid ?_
    refine wp_cases (fun hnone => ?_) fun _ => ?_
    · unfold recordTeardownIntent
      refine wp_require_then (fun _ => ?_) fun _ => .same ht
      simp only [wp_bind, wp_uuid4, wp_utcNow]
      refine wp_writeGatewaySession ht hid (recordTeardown_step hnone rfl) fun u w hu => ?_
      exact (wp_pure _).2 hu
    · exact wp_ofExcept_then (fun _ _ => (wp_pure _).2 (.same ht)) fun _ _ => .same ht
  | update change =>
    show wp (updateGatewaySession sessionId change.1) _ _ _ s v
    refine wp_beforeSession hs fun t w ht => ?_
    unfold Leaves updateGatewaySessionUnlocked
    rw [wp_bind]
    refine wp_getGatewaySession ht hid ?_
    refine wp_require_then (fun _ => ?_) fun _ => .same ht
    rw [wp_bind]
    refine (confined_ensureGlobal .gatewaySessions old.sessionId).wp
      (fun u hu => (Stepped.same ht).of_agree hu (by rintro ⟨⟩)) (fun _ u w hu => ?_)
      fun _ u _ hu => (Stepped.same ht).of_agree hu (by rintro ⟨⟩)
    have hu' : u.read (.gatewaySession sessionId) = some old :=
      (hu (.gatewaySession sessionId) (by rintro ⟨⟩)).trans ht
    rcases hrefusal : change.1.refusal old with _ | _
    · simp only [wp_bind, wp_utcNow]
      refine wp_writeGatewaySession hu' hid (update_step change.2 hrefusal) fun x w hx => ?_
      exact (wp_pure _).2 hx
    · exact (wp_raise _).2 (.same hu')

/-! ### Runs -/

/-- A run of calls on one session, each stopped after one of its durable writes or run to its end:
the records that the session has had, the latest first, and the store it leaves.  `A` says which
calls may follow a history. -/
inductive AttachmentRun (sessionId : DurableRecordId)
    (A : List GatewaySession → AttachmentCall → Prop) (s₀ : Store) :
    List GatewaySession → Store → Prop
  | start {session : GatewaySession} (h : s₀.read (.gatewaySession sessionId) = some session) :
      AttachmentRun sessionId A s₀ [session] s₀
  | step {history : List GatewaySession} {s t : Store} {session : GatewaySession} (entropy : Entropy)
      (call : AttachmentCall) (v : Supply) (h : AttachmentRun sessionId A s₀ history s)
      (hcall : A history call) (ht : t ∈ (call.prog sessionId).halts s v)
      (hread : t.read (.gatewaySession sessionId) = some session) :
      AttachmentRun sessionId A s₀ (session :: history) t

/-- A session that a run can start from: it has its name, and a published proxy, if there is one,
belongs to the slot. -/
def StartsOwned (sessionId : DurableRecordId) (s₀ : Store) : Prop :=
  ∀ session, s₀.read (.gatewaySession sessionId) = some session →
    session.sessionId = sessionId ∧ session.ProxyOwned

/-- A reservation under an identity that the slot has shown names the identity it shows now. -/
def AttachmentCall.Remembered (history : List GatewaySession) (call : AttachmentCall) : Prop :=
  ∀ attachmentId, call.reserved = some attachmentId →
    ∀ earlier ∈ history, ∀ a, earlier.slot = some a → a.attachmentId = attachmentId →
      ∃ latest b, history.head? = some latest ∧ latest.slot = some b ∧ b.attachmentId = attachmentId

/-- The order of two records of a run: the later one keeps a revocation, and stays retired. -/
structure Follows (later earlier : GatewaySession) : Prop where
  revoked : ∀ a b, earlier.slot = some a → a.state = .revoked → later.slot = some b →
    b.attachmentId = a.attachmentId → b.state = .revoked
  retires : Retires earlier later

/-- The lifecycle of a session's records, the latest first. -/
structure Lifecycle (history : List GatewaySession) : Prop where
  moves : history.IsChain fun later earlier => ∃ reserved, SlotStep reserved earlier.slot later.slot
  follows : history.Pairwise Follows
  proxy : ∀ session ∈ history, session.ProxyOwned

variable {s₀ t : Store} {history : List GatewaySession}
  {A : List GatewaySession → AttachmentCall → Prop}
  {call : AttachmentCall} {a : BrowserAttachmentRecord} {new : GatewaySession}

theorem Retires.trans {x y z : GatewaySession} (h : Retires x y) (h' : Retires y z) :
    Retires x z := by
  refine ⟨fun hx => ?_, fun hx => h'.closed (h.closed hx), fun hx a ha henter => ?_⟩
  · have hy := h.teardown hx
    rw [h'.teardown (by rwa [hy]), hy]
  · have hy : y.Retired := by
      rcases hx with hx | hx
      · exact .inl (by rw [h.teardown hx]; exact hx)
      · exact .inr (h.closed hx)
    exact h.quiet hx a (h'.quiet hy a ha henter) henter

theorem AttachmentRun.latest (h : AttachmentRun sessionId A s₀ history s) :
    ∃ latest rest, history = latest :: rest ∧ s.read (.gatewaySession sessionId) = some latest := by
  rcases h with h | ⟨_, _, _, _, _, _, hread⟩
  · exact ⟨_, [], rfl, h⟩
  · exact ⟨_, _, rfl, hread⟩

theorem AttachmentCall.step_of_halts [Entropy] (hs : s.read (.gatewaySession sessionId) = some old)
    (hid : old.sessionId = sessionId) (ht : t ∈ (call.prog sessionId).halts s v)
    (hread : t.read (.gatewaySession sessionId) = some new) :
    SessionStep call.reserved old new := by
  obtain ⟨_, hfound, hstep⟩ := wp_halts (call.wp_prog hs hid) (.same hs) t ht
  cases hread.symm.trans hfound
  exact hstep

/-- The records of a run keep the name of the session. -/
theorem AttachmentRun.named (h₀ : StartsOwned sessionId s₀)
    (h : AttachmentRun sessionId A s₀ history s) :
    ∀ session ∈ history, session.sessionId = sessionId := by
  induction h with
  | start h =>
    rw [List.forall_mem_singleton]
    exact (h₀ _ h).1
  | step entropy call v h hcall ht hread ih =>
    obtain ⟨latest, _, rfl, hs⟩ := h.latest
    have hid := ih latest (.head _)
    have hstep := AttachmentCall.step_of_halts hs hid ht hread
    rw [List.forall_mem_cons]
    exact ⟨hstep.sessionId.trans hid, ih⟩

omit [Platform] in
theorem BrowserAttachmentState.not_next_revoked (y : BrowserAttachmentState) : ¬ Next .revoked y := by
  intro h
  cases h with
  | beginRevoke h => rcases h with h | h | h <;> cases h
  | revoke h => rcases h with h | h <;> cases h

omit [Platform] in
/-- A revoked attachment stays revoked in one step that reserves no identity that was shown. -/
theorem SlotStep.revoked {reserved : Option String} {b : BrowserAttachmentRecord}
    {x y : Option BrowserAttachmentRecord} (h : SlotStep reserved x y)
    (hx : ∀ c, x = some c → c.attachmentId = a.attachmentId → c.state = .revoked)
    (hnew : reserved ≠ some a.attachmentId) (hy : y = some b)
    (hid : b.attachmentId = a.attachmentId) : b.state = .revoked := by
  cases h with
  | keep h => exact hx b (h ▸ hy) hid
  | reserve hb hresv =>
    cases hb.symm.trans hy
    rw [hid] at hresv
    exact absurd hresv hnew
  | move ha hb hsame hnext =>
    cases hb.symm.trans hy
    have hrev := hx _ ha (hsame.symm.trans hid)
    rw [hrev] at hnext
    exact absurd hnext (BrowserAttachmentState.not_next_revoked _)

/-- A step of a run whose call remembers keeps every earlier revocation. -/
theorem Follows.of_step {latest : GatewaySession} {rest : List GatewaySession}
    (hstep : SessionStep call.reserved latest new) (hcall : call.Remembered (latest :: rest))
    (hrest : ∀ earlier ∈ latest :: rest, earlier = latest ∨ Follows latest earlier) :
    ∀ earlier ∈ latest :: rest, Follows new earlier := by
  intro earlier hearlier
  have hrev : ∀ a, earlier.slot = some a → a.state = .revoked → ∀ c, latest.slot = some c →
      c.attachmentId = a.attachmentId → c.state = .revoked := by
    intro a ha hstate c hc hid
    rcases hrest earlier hearlier with rfl | hfollows
    · cases ha.symm.trans hc
      exact hstate
    · exact hfollows.revoked a c ha hstate hc hid
  have hretires : Retires earlier new := by
    rcases hrest earlier hearlier with rfl | hfollows
    · exact hstep.retires
    · exact hfollows.retires.trans hstep.retires
  refine ⟨fun a b ha hstate hb hid => ?_, hretires⟩
  by_cases hresv : call.reserved = some a.attachmentId
  · -- The call names an identity that the slot has shown, so it is the one it shows now.
    obtain ⟨_, c, hlat, hc, hcid⟩ := hcall _ hresv earlier hearlier a ha rfl
    cases hlat
    have hslot := hstep.slot
    cases hslot with
    | keep h => exact hrev a ha hstate b (h ▸ hb) hid
    | reserve hnew _ _ hfree =>
      cases hnew.symm.trans hb
      exact absurd (hcid.trans hid.symm) (hfree c hc).2
    | move ho hnew hsame hnext =>
      have hmove : SlotStep none latest.slot new.slot := .move ho hnew hsame hnext
      exact hmove.revoked (hrev a ha hstate) nofun hb hid
  · exact hstep.slot.revoked (hrev a ha hstate) hresv hb hid

/-- **The lifecycle along a run** whose reservations remember what the slot has shown. -/
theorem AttachmentRun.lifecycle (h₀ : StartsOwned sessionId s₀)
    (h : AttachmentRun sessionId AttachmentCall.Remembered s₀ history s) : Lifecycle history := by
  induction h with
  | start h =>
    refine ⟨.singleton _, List.pairwise_singleton .., ?_⟩
    rw [List.forall_mem_singleton]
    exact (h₀ _ h).2
  | step entropy call v h hcall ht hread ih =>
    obtain ⟨latest, _, rfl, hs⟩ := h.latest
    have hid := h.named h₀ latest (.head _)
    have hstep := AttachmentCall.step_of_halts hs hid ht hread
    have hpairs := List.pairwise_cons.1 ih.follows
    have hfollows := Follows.of_step hstep hcall fun earlier hearlier => by
      rcases List.mem_cons.1 hearlier with rfl | hearlier
      · exact .inl rfl
      · exact .inr (hpairs.1 earlier hearlier)
    refine ⟨.cons_cons ⟨_, hstep.slot⟩ ih.moves, List.pairwise_cons.2 ⟨hfollows, ih.follows⟩, ?_⟩
    rw [List.forall_mem_cons]
    exact ⟨hstep.proxy (ih.proxy latest (.head _)), ih.proxy⟩

/-- A reservation of the identity that the slot shows is refused. -/
theorem prepare_refused [Entropy] {attachment : BrowserAttachment} (intent : Dict)
    (hs : s.read (.gatewaySession sessionId) = some old) (hid : old.sessionId = sessionId)
    (ha : old.slot = some a) (hsame : a.attachmentId = attachment.1.attachmentId) :
    wp ((AttachmentCall.prepare attachment intent).prog sessionId) (fun _ => True)
      (fun _ _ _ => False) (fun _ _ _ => True) s v := by
  show wp (prepareGatewayBrowserAttachment sessionId attachment intent) _ _ _ s v
  unfold prepareGatewayBrowserAttachment attachmentTransition
  refine wp_require_then (fun _ => ?_) fun _ => trivial
  refine wp_ofExcept_then (fun _ _ => ?_) fun _ _ => trivial
  rw [wp_bind]
  refine readOnly_requireIndexMigrationComplete.wp (fun _ w => ?_) fun _ _ => trivial
  rw [wp_bind]
  refine confined_recoverPendingTransitions.wp (fun _ _ => trivial) (fun _ t w ht => ?_)
    fun _ _ _ _ => trivial
  have hread : t.read (.gatewaySession sessionId) = some old :=
    (ht (.gatewaySession sessionId) fun h => h).trans hs
  rw [wp_bind]
  refine wp_getGatewaySession hread hid ?_
  refine wp_ofExcept_then (fun decided hdec => ?_) fun _ _ => trivial
  obtain ⟨_, hgw, _⟩ := except_bind_ok hdec
  exact absurd hsame (prepareAttachment_free hgw a ha).2

/-- **The browser-attachment lifecycle.**  Along every run whose reservations never name an
identity that the slot showed before the one it shows: the slot moves along the lifecycle and never
leaves `revoked`; a published proxy belongs to the attachment of the slot; a teardown intent and the
closed state are kept, and no attachment starts under them; and a reservation of an identity that
was revoked is refused. -/
theorem attachment_lifecycle_of_run (h₀ : StartsOwned sessionId s₀)
    (h : AttachmentRun sessionId AttachmentCall.Remembered s₀ history s) :
    Lifecycle history ∧
      ∀ earlier ∈ history, ∀ a, earlier.slot = some a → a.state = .revoked →
        ∀ (attachment : BrowserAttachment) (intent : Dict),
          attachment.1.attachmentId = a.attachmentId →
          (AttachmentCall.prepare attachment intent).Remembered history →
          ∀ (_ : Entropy) (v : Supply) (session : GatewaySession),
            (((AttachmentCall.prepare attachment intent).prog sessionId).run s v).result ≠
              .ok session := by
  refine ⟨h.lifecycle h₀, fun earlier hearlier a ha _ attachment intent hid hremembered entropy v
    session hres => ?_⟩
  obtain ⟨latest, b, hhead, hb, hbid⟩ :=
    hremembered _ rfl earlier hearlier a ha hid.symm
  obtain ⟨_, _, rfl, hs⟩ := h.latest
  cases hhead
  have href := prepare_refused (v := v) intent hs (h.named h₀ latest (.head _)) hb hbid
  have hno := href.2
  rw [hres] at hno
  exact hno

/-- A call extends a run, and the gateway session it was made for is still on record. -/
theorem AttachmentRun.extend (entropy : Entropy) (h₀ : StartsOwned sessionId s₀)
    (h : AttachmentRun sessionId A s₀ history s) (hcall : A history call) (v : Supply) :
    ∃ session, AttachmentRun sessionId A s₀ (session :: history)
        ((call.prog sessionId).run s v).store ∧
      ((call.prog sessionId).run s v).store.read (.gatewaySession sessionId) = some session := by
  obtain ⟨latest, _, rfl, hs⟩ := h.latest
  have hid := h.named h₀ latest (.head _)
  have hlast : ((call.prog sessionId).run s v).store ∈ (call.prog sessionId).halts s v :=
    List.mem_append_right _ (.head _)
  obtain ⟨session, hread, _⟩ := wp_halts (call.wp_prog hs hid) (.same hs) _ hlast
  exact ⟨session, .step entropy call v h hcall hlast hread, hread⟩

end

/-! ### Sample runs -/

/-- A ready session of the relay's own runtime. -/
def sampleSession : GatewaySession where
  sessionId := ⟨"gateway_1", by decide⟩
  cluster := "ares"
  name := "viewer"
  state := .ready
  schedulerJobId := none
  gateway := [("jarvis_runtime_binding", .obj []), ("runtime_spec", .obj [])]
  artifacts := []
  details := []
  createdAt := 0
  updatedAt := 0
  metadata := [("owner", .str "clio-relay")]

/-- A queue with the session. -/
def sampleSessionQueue : Store :=
  (Files.empty.write .migrationState ⟨true, true, true, true, none, 0, 0⟩).write
    (.gatewaySession sampleSession.sessionId) sampleSession

/-- An attachment of the session. -/
def sampleAttachment (attachmentId : String) (state : BrowserAttachmentState)
    (revokedAt : Option String) : BrowserAttachmentRecord where
  attachmentId := attachmentId
  state := state
  issuedAt := "2026-01-01T00:00:00Z"
  expiresAt := "2026-01-02T00:00:00Z"
  revokedAt := revokedAt
  tokenSha256 := "0000000000000000000000000000000000000000000000000000000000000000"
  bindPort := 8080
  proxyProcessId := none
  revocationPath := "/revoke"

/-- The ownership intent of an attachment. -/
def sampleProxyIntent (attachmentId state : String) : Dict :=
  [("schema_version", .str "clio-relay.gateway-ownership-intent.v1"),
    ("attachment_id", .str attachmentId), ("state", .str state), ("owner_token", .str "token"),
    ("connector_generation_id", .str "generation"), ("config_path", .str "config.json")]

/-- A call on the sample platform. -/
abbrev SampleAttachmentCall : Type := @AttachmentCall samplePlatform

/-- An attachment that pydantic accepts on the sample platform. -/
abbrev SampleAttachment : Type := @BrowserAttachment samplePlatform

/-- The attachments `a` and `b`, starting and revoked. -/
def sampleStarting : Bool → SampleAttachment
  | true => ⟨sampleAttachment "a" .starting none, by decide +kernel⟩
  | false => ⟨sampleAttachment "b" .starting none, by decide +kernel⟩

@[inherit_doc sampleStarting]
def sampleRevoked : Bool → SampleAttachment
  | true => ⟨sampleAttachment "a" .revoked (some "2026-01-01T01:00:00Z"), by decide +kernel⟩
  | false => ⟨sampleAttachment "b" .revoked (some "2026-01-01T01:00:00Z"), by decide +kernel⟩

/-- Reserve the slot. -/
def samplePrepare (first : Bool) : SampleAttachmentCall :=
  @AttachmentCall.prepare samplePlatform (sampleStarting first)
    (sampleProxyIntent (sampleStarting first).1.attachmentId "starting")

/-- Begin the revocation. -/
def sampleBegin (first : Bool) : SampleAttachmentCall :=
  @AttachmentCall.beginRevoke samplePlatform (sampleStarting first).1.attachmentId

/-- Finish the revocation. -/
def sampleFinish (first : Bool) : SampleAttachmentCall :=
  @AttachmentCall.finishRevoke samplePlatform (sampleRevoked first)
    (some (sampleProxyIntent (sampleStarting first).1.attachmentId "absent_verified")) []

/-- The store after some calls, the latest first. -/
def sampleStoreAfter : List SampleAttachmentCall → Store
  | [] => sampleSessionQueue
  | call :: calls =>
    ((@AttachmentCall.prog samplePlatform sampleEntropy sampleSession.sessionId call).run
      (sampleStoreAfter calls) sampleSupply).store

/-- The records of the session after some calls. -/
def sampleHistory : List SampleAttachmentCall → List GatewaySession
  | [] => [sampleSession]
  | call :: calls =>
    ((sampleStoreAfter (call :: calls)).read (.gatewaySession sampleSession.sessionId)).toList ++
      sampleHistory calls

/-- The slot after some calls. -/
def sampleSlotAfter (calls : List SampleAttachmentCall) :
    Option (String × BrowserAttachmentState) :=
  (((sampleStoreAfter calls).read (.gatewaySession sampleSession.sessionId)).bind
    (@GatewaySession.slot samplePlatform)).map fun a => (a.attachmentId, a.state)

/-- The attachment `a` is revoked. -/
def sampleRevocation (first : Bool) : List SampleAttachmentCall :=
  [sampleFinish first, sampleBegin first, samplePrepare first]

theorem startsOwned_sampleSessionQueue :
    @StartsOwned samplePlatform sampleSession.sessionId sampleSessionQueue := by
  intro _ hread
  have hsample : sampleSessionQueue.read (.gatewaySession sampleSession.sessionId) =
      some sampleSession := read_write_self ..
  cases hsample.symm.trans hread
  exact ⟨rfl, .inl (by decide +kernel)⟩

theorem run_sampleStoreAfter {A : List GatewaySession → SampleAttachmentCall → Prop} :
    ∀ calls : List SampleAttachmentCall,
      (∀ call rest, call :: rest <:+ calls → A (sampleHistory rest) call) →
        @AttachmentRun samplePlatform sampleSession.sessionId A sampleSessionQueue
          (sampleHistory calls) (sampleStoreAfter calls)
  | [], _ => @AttachmentRun.start samplePlatform _ _ _ _ (read_write_self ..)
  | call :: calls, hA => by
      let := samplePlatform
      have hrun := run_sampleStoreAfter calls fun next rest hrest =>
        hA next rest (hrest.trans (List.suffix_cons ..))
      have hcall := hA call calls (List.suffix_refl _)
      obtain ⟨session, hnext, hread⟩ :=
        hrun.extend sampleEntropy startsOwned_sampleSessionQueue hcall sampleSupply
      have hhistory : sampleHistory (call :: calls) = session :: sampleHistory calls := by
        show ((sampleStoreAfter (call :: calls)).read
          (.gatewaySession sampleSession.sessionId)).toList ++ sampleHistory calls = _
        rw [show (sampleStoreAfter (call :: calls)).read (.gatewaySession sampleSession.sessionId) =
          some session from hread]
        rfl
      rw [hhistory]
      exact hnext

/-- The history has the record after each call. -/
theorem mem_sampleHistory {rest : List SampleAttachmentCall} {session : GatewaySession}
    (hread : (sampleStoreAfter rest).read (.gatewaySession sampleSession.sessionId) = some session) :
    ∀ calls, rest <:+ calls → session ∈ sampleHistory calls
  | [], hrest => by
      obtain rfl := List.suffix_nil.1 hrest
      have hsample : sampleSessionQueue.read (.gatewaySession sampleSession.sessionId) =
          some sampleSession := read_write_self ..
      cases hsample.symm.trans hread
      exact .head _
  | call :: calls, hrest => by
      rcases List.suffix_cons_iff.1 hrest with rfl | hrest
      · exact List.mem_append_left _ (Option.mem_toList.2 hread)
      · exact List.mem_append_right _ (mem_sampleHistory hread calls hrest)

theorem record_of_sampleSlotAfter {calls : List SampleAttachmentCall} {attachmentId : String}
    {state : BrowserAttachmentState} (h : sampleSlotAfter calls = some (attachmentId, state)) :
    ∃ session a, (sampleStoreAfter calls).read (.gatewaySession sampleSession.sessionId) =
      some session ∧ @GatewaySession.slot samplePlatform session = some a ∧
        a.attachmentId = attachmentId ∧ a.state = state := by
  obtain ⟨a, ha, hpair⟩ := Option.map_eq_some_iff.1 h
  obtain ⟨session, hread, hslot⟩ := Option.bind_eq_some_iff.1 ha
  exact ⟨session, a, hread, hslot, (Prod.mk.inj hpair).1, (Prod.mk.inj hpair).2⟩

/-- **A revoked identity is accepted again.**  The identity `a` is reserved and revoked, then `b`,
and then `a` is reserved a second time: the slot holds it, starting. -/
theorem attachment_reused_after_revocation :
    ∃ history s earlier latest a b,
      @StartsOwned samplePlatform sampleSession.sessionId sampleSessionQueue ∧
      @AttachmentRun samplePlatform sampleSession.sessionId (fun _ _ => True) sampleSessionQueue
        history s ∧
      earlier ∈ history ∧ @GatewaySession.slot samplePlatform earlier = some a ∧
      a.state = .revoked ∧ s.read (.gatewaySession sampleSession.sessionId) = some latest ∧
      @GatewaySession.slot samplePlatform latest = some b ∧ b.attachmentId = a.attachmentId ∧
      b.state = .starting := by
  have hrun := run_sampleStoreAfter (A := fun _ _ => True)
    (samplePrepare true :: sampleRevocation false ++ sampleRevocation true) fun _ _ _ => trivial
  obtain ⟨earlier, a, hearlier, ha, haid, hrev⟩ := record_of_sampleSlotAfter
    (show sampleSlotAfter (sampleRevocation true) = some ("a", .revoked) by decide +kernel)
  obtain ⟨latest, b, hlat, hb, hbid, hstarting⟩ := record_of_sampleSlotAfter
    (show sampleSlotAfter (samplePrepare true :: sampleRevocation false ++ sampleRevocation true) =
      some ("a", .starting) by decide +kernel)
  have hmem := mem_sampleHistory hearlier _ (List.suffix_append
    (samplePrepare true :: sampleRevocation false) (sampleRevocation true))
  exact ⟨_, _, earlier, latest, a, b, startsOwned_sampleSessionQueue, hrun, hmem, ha, hrev,
    hlat, hb, hbid.trans haid.symm, hstarting⟩

/-- The run that reserves and revokes `a` keeps the lifecycle, and a second reservation of `a` is
refused. -/
theorem attachment_lifecycle_of_run_sample :
    sampleSlotAfter (sampleRevocation true) = some ("a", .revoked) ∧
      ∃ history, @AttachmentRun samplePlatform sampleSession.sessionId
          (@AttachmentCall.Remembered samplePlatform) sampleSessionQueue history
          (sampleStoreAfter (sampleRevocation true)) ∧
        @Lifecycle samplePlatform history ∧ ∀ session,
          ((@AttachmentCall.prog samplePlatform sampleEntropy sampleSession.sessionId
            (samplePrepare true)).run (sampleStoreAfter (sampleRevocation true))
              sampleSupply).result ≠ .ok session := by
  let := samplePlatform
  have hslot : sampleSlotAfter (sampleRevocation true) = some ("a", .revoked) := by decide +kernel
  have hcalls : ∀ call rest, call :: rest <:+ sampleRevocation true →
      AttachmentCall.Remembered (sampleHistory rest) call := by
    intro call rest hrest attachmentId hresv _ hearlier a ha
    rcases List.suffix_cons_iff.1 hrest with heq | hrest
    · cases heq
      cases hresv
    rcases List.suffix_cons_iff.1 hrest with heq | hrest
    · cases heq
      cases hresv
    rcases List.suffix_cons_iff.1 hrest with heq | hrest
    · cases heq
      obtain rfl := List.mem_singleton.1 hearlier
      cases ha
    · cases List.suffix_nil.1 hrest
  have hrun := run_sampleStoreAfter (sampleRevocation true) hcalls
  obtain ⟨session, a, hread, ha, haid, hrev⟩ := record_of_sampleSlotAfter hslot
  have hmem := mem_sampleHistory hread _ (List.suffix_refl _)
  obtain ⟨hlife, href⟩ := attachment_lifecycle_of_run startsOwned_sampleSessionQueue hrun
  refine ⟨hslot, _, hrun, hlife, fun found => ?_⟩
  refine href session hmem a ha hrev (sampleStarting true) _ haid.symm ?_ sampleEntropy
    sampleSupply found
  obtain ⟨latest, _, hhistory, hlat⟩ := hrun.latest
  cases hlat.symm.trans hread
  intro attachmentId hresv _ _ _ _ _
  cases hresv
  exact ⟨session, a, by rw [hhistory]; rfl, ha, haid⟩

end ClioQueue
