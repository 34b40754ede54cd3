/-
# Runs of a connection

Any number of threads call `request_json`, `connect`, `reconnect` and `close`.  A stream is checked
out under the lock, used outside it and handed back later; `_release_stream` does not ask whether
the channel was replaced meanwhile.  In every run in which what is handed back belongs to the
transport that is held, every stream that is returned was proven against it
(`requests_ride_held_channel`).
-/

import ClioQueue.Remote.Connection
import Mathlib.Logic.Relation

namespace ClioQueue.Remote

open RemoteConnection

/-- The thread has a stream of the attempt's transport. -/
def Thread.holds (attempt : Nat) (thread : Thread) : Bool :=
  match thread.phase with
  | .requesting _ stream | .releasing stream | .discarding stream _ => stream.isOf attempt
  | _ => false

/-- The streams of the held transport that are pooled or in use. -/
def World.heldStreams (w : World) : Nat :=
  match w.connection.transport with
  | none => 0
  | some attempt => w.connection.idleStreams.countP (Stream.isOf attempt) +
    w.threads.countP (Thread.holds attempt)

/-- Every request rides the channel that is held. -/
structure World.RidesHeldChannel (w : World) : Prop where
  acquired : ∀ stream w', Step w (.acquired stream) w' →
    ∃ attempt, w'.connection.transport = some attempt ∧ stream.isOf attempt = true
  pool : w.connection.idleStreams.length ≤ maxPooledChannelStreams
  openStreams : w.connection.openStreams = w.heldStreams
  builds : ∀ event w', Step w event w' → w'.connection.attempt ≤ w.connection.attempt + 1
  issued : ∀ thread ∈ w.threads, thread.issued ≤ 2

/-- What is handed back while a transport is held is a stream of that transport. -/
def HandsBackOwn (c : RemoteConnection) (event : ChannelEvent) : Prop :=
  ∀ stream, event = .handedBack stream → ∀ attempt, c.transport = some attempt →
    stream.isOf attempt = true

/-- A step that hands back no stream of another transport. -/
def CarefulStep (w w' : World) : Prop :=
  ∃ event, Step w event w' ∧ HandsBackOwn w.connection event

/-! ### What is known of a thread -/

variable {c c' : RemoteConnection} {w w' : World} {thread thread' : Thread} {event : ChannelEvent}
  {rest : List Stream} {attempt n : Nat} {stream : Stream}

theorem Stream.isOf_iff : stream.isOf attempt = true ↔
    stream.endpoint = attempt ∧ stream.nonce = attempt ∧ stream.identity = attempt := by
  simp only [isOf, Bool.and_eq_true, decide_eq_true_eq, and_assoc]

/-- What a thread read of the channel is still so if the channel was not replaced. -/
def Thread.IsCurrent (c : RemoteConnection) (generation : Nat) (stream : Stream) : Prop :=
  generation ≤ c.transportGeneration ∧ stream.identity ≤ c.attempt ∧
    (generation = c.transportGeneration →
      ∃ attempt, c.transport = some attempt ∧ stream.isOf attempt = true)

/-- What holds of a thread. -/
def Thread.Sound (c : RemoteConnection) (thread : Thread) : Prop :=
  match thread.phase with
  | .acquiring retried => thread.issued ≤ retried.toNat
  | .proving retried proving => thread.issued ≤ retried.toNat ∧
    IsCurrent c proving.generation ⟨proving.endpoint, proving.nonce, proving.identity, true⟩
  | .proven retried generation stream => thread.issued ≤ retried.toNat ∧
    IsCurrent c generation stream
  | .requesting retried stream => thread.issued ≤ retried.toNat ∧ stream.identity ≤ c.attempt
  | .releasing stream => thread.issued ≤ 2 ∧ stream.identity ≤ c.attempt
  | .discarding stream retries => thread.issued ≤ 2 ∧ (retries = true → thread.issued ≤ 1) ∧
    stream.identity ≤ c.attempt
  | .finished => thread.issued ≤ 2

/-- From one state of the connection to a later one. -/
structure Advances (c c' : RemoteConnection) : Prop where
  generation : c.transportGeneration ≤ c'.transportGeneration
  attempt : c.attempt ≤ c'.attempt
  transport : c.transportGeneration = c'.transportGeneration →
    ∀ attempt, c.transport = some attempt → c'.transport = some attempt

theorem Thread.IsCurrent.advances {generation : Nat} (h : Advances c c')
    (hcur : IsCurrent c generation stream) : IsCurrent c' generation stream := by
  obtain ⟨hgen, hident, hheld⟩ := hcur
  refine ⟨Nat.le_trans hgen h.generation, Nat.le_trans hident h.attempt, fun heq => ?_⟩
  have hsame : c.transportGeneration = c'.transportGeneration :=
    Nat.le_antisymm h.generation (heq ▸ hgen)
  obtain ⟨attempt, htransport, hstr⟩ := hheld (heq.trans hsame.symm)
  exact ⟨attempt, h.transport hsame attempt htransport, hstr⟩

theorem Thread.Sound.advances (h : Advances c c') (hthr : thread.Sound c) : thread.Sound c' := by
  obtain ⟨phase, _⟩ := thread
  cases phase with
  | acquiring | finished => exact hthr
  | proving | proven => exact ⟨hthr.1, hthr.2.advances h⟩
  | requesting | releasing => exact ⟨hthr.1, Nat.le_trans hthr.2 h.attempt⟩
  | discarding =>
    exact ⟨hthr.1, hthr.2.1, Nat.le_trans hthr.2.2 h.attempt⟩

theorem Thread.Sound.issued_le (h : thread.Sound c) : thread.issued ≤ 2 := by
  obtain ⟨phase, issued⟩ := thread
  have hbool : ∀ b : Bool, b.toNat ≤ 2 := by decide
  cases phase with
  | acquiring retried => exact Nat.le_trans h (hbool retried)
  | proving retried | proven retried | requesting retried => exact Nat.le_trans h.1 (hbool retried)
  | releasing | discarding => exact h.1
  | finished => exact h

theorem Thread.Sound.finishes (c' : RemoteConnection) (h : thread.Sound c) :
    Thread.Sound c' ⟨.finished, thread.issued⟩ :=
  h.issued_le

/-- A thread has no stream of an attempt that has not been made. -/
theorem Thread.Sound.not_holds (h : thread.Sound c) (hlater : c.attempt < attempt) :
    thread.holds attempt = false := by
  have hnot : ∀ stream : Stream, stream.identity ≤ c.attempt → stream.isOf attempt = false := by
    intro stream _
    refine Bool.eq_false_iff.2 fun hof => ?_
    have hsame := (Stream.isOf_iff.1 hof).2.2
    omega
  obtain ⟨phase, _⟩ := thread
  cases phase with
  | acquiring _ | proving _ _ | proven _ _ _ | finished => rfl
  | requesting retried stream | releasing stream => exact hnot stream h.2
  | discarding stream => exact hnot stream h.2.2

/-! ### What holds of the connection -/

/-- What holds of the connection. -/
structure ConnectionSound (c : RemoteConnection) : Prop where
  held : ∀ attempt, c.transport = some attempt → c.endpoint = some attempt ∧
    c.bootstrap = some attempt ∧ c.nonce = some attempt ∧ attempt ≤ c.attempt
  free : c.transport = none → c.openStreams = 0 ∧ c.idleStreams = []
  idle : ∀ attempt, c.transport = some attempt → ∀ stream ∈ c.idleStreams,
    stream.isOf attempt = true
  pool : c.idleStreams.length ≤ maxPooledChannelStreams

theorem releaseLocked_sound (c : RemoteConnection) : ConnectionSound c.releaseLocked where
  held attempt h := by cases h
  free _ := ⟨rfl, rfl⟩
  idle attempt h := by cases h
  pool := Nat.zero_le _

theorem advances_releaseLocked (c : RemoteConnection) : Advances c c.releaseLocked where
  generation := Nat.le_succ _
  attempt := Nat.le_refl _
  transport h := by
    have hnext : c.transportGeneration = c.transportGeneration + 1 := h
    omega

/-- Establishing a transport where none is held leaves a sound connection, whatever comes of it. -/
theorem establish_sound (outcome : Establishing) (h : ConnectionSound c)
    (hfree : c.transport = none) : ConnectionSound (establish outcome c).2 := by
  rcases outcome with _ | _
  · refine ⟨fun attempt hheld => ?_, h.free, h.idle, h.pool⟩
    have hsame : c.transport = some attempt := hheld
    rw [hfree] at hsame
    cases hsame
  · refine ⟨fun attempt hheld => ?_, fun hnone => ?_, fun attempt hheld stream hmem => ?_, ?_⟩
    · cases Option.some.inj hheld
      exact ⟨rfl, rfl, rfl, Nat.le_refl _⟩
    · cases hnone
    · cases Option.some.inj hheld
      rw [List.mem_singleton.1 hmem]
      exact Stream.isOf_iff.2 ⟨rfl, rfl, rfl⟩
    · show 1 ≤ 8
      omega

theorem advances_establish (outcome : Establishing) (hfree : c.transport = none) :
    Advances c (establish outcome c).2 := by
  cases outcome <;> refine ⟨Nat.le_refl _, Nat.le_succ _, fun _ attempt hheld => ?_⟩ <;>
    · rw [hfree] at hheld
      cases hheld

/-- The streams that are passed over are those before the one that is taken. -/
theorem takeIdle_spec {idle : List Stream} {o : Option Stream}
    (h : takeIdle idle c = (o, c')) : ∃ closed rest, idle = closed ++ (o.toList ++ rest) ∧
      c' = { c with idleStreams := rest, openStreams := c.openStreams - closed.length } ∧
      (o = none → rest = []) := by
  induction idle generalizing c with
  | nil =>
    cases h
    exact ⟨[], [], rfl, rfl, fun _ => rfl⟩
  | cons candidate idle ih =>
    rw [takeIdle] at h
    split at h
    · cases h
      exact ⟨[], idle, rfl, rfl, fun hnone => by cases hnone⟩
    · obtain ⟨closed, rest, rfl, rfl, hrest⟩ := ih h
      refine ⟨candidate :: closed, rest, rfl, ?_, hrest⟩
      show RemoteConnection.mk _ _ _ _ _ _ _ _ _ _ = RemoteConnection.mk _ _ _ _ _ _ _ _ _ _
      rw [List.length_cons, Nat.add_comm closed.length, ← Nat.sub_sub]
      rfl

/-- `_acquire_stream`'s first section: what it raises leaves the connection as it was, a pooled
stream is one of the held transport, and what a stream will be proven with is the held
transport's. -/
theorem acquireStream_spec {result : Acquiring} (hc : ConnectionSound c)
    (h : acquireStream c = (result, c')) :
    (∃ error, result = .raised error ∧ c' = c) ∨
    ∃ attempt, c.transport = some attempt ∧ ∃ closed rest,
      c' = { c with idleStreams := rest, openStreams := c.openStreams - closed.length } ∧
      ((∃ stream, result = .pooled stream ∧ c.idleStreams = closed ++ stream :: rest) ∨
        result = .unproven ⟨attempt, attempt, attempt, c.transportGeneration⟩ ∧
          c.idleStreams = closed ∧ rest = []) := by
  rw [acquireStream] at h
  split at h
  · cases h
    exact .inl ⟨_, rfl, rfl⟩
  · rename_i hsome
    split at h
    · cases h
      exact .inl ⟨_, rfl, rfl⟩
    · right
      obtain ⟨attempt, hheld⟩ := Option.ne_none_iff_exists'.1 (mt Option.isNone_iff_eq_none.2 hsome)
      obtain ⟨hendp, hbootstrap, hnonce, -⟩ := hc.held attempt hheld
      refine ⟨attempt, hheld, ?_⟩
      split at h
      · rename_i stream taken htaken
        obtain ⟨closed, rest, hidle, rfl, -⟩ := takeIdle_spec htaken
        cases h
        exact ⟨closed, rest, rfl, .inl ⟨stream, rfl, hidle⟩⟩
      · rename_i taken htaken
        obtain ⟨closed, rest, hidle, rfl, hrest⟩ := takeIdle_spec htaken
        have hnil := hrest rfl
        simp only [hendp, hbootstrap, hnonce] at h
        cases h
        refine ⟨closed, rest, ?_, .inr ⟨rfl, ?_, hnil⟩⟩
        · simp only [hendp, hbootstrap, hnonce]
        · rw [hidle, hnil]
          exact List.append_nil closed

theorem ConnectionSound.sublist (hc : ConnectionSound c) (hrest : rest.Sublist c.idleStreams)
    (hfree : c.transport = none → n = 0) :
    ConnectionSound { c with idleStreams := rest, openStreams := n } where
  held := hc.held
  free hnone := by
    refine ⟨hfree hnone, ?_⟩
    rw [(hc.free hnone).2] at hrest
    exact List.sublist_nil.1 hrest
  idle attempt hheld stream hmem := hc.idle attempt hheld stream (hrest.subset hmem)
  pool := Nat.le_trans hrest.length_le hc.pool

theorem releaseStream_sound (hc : ConnectionSound c) (hown : HandsBackOwn c (.handedBack stream)) :
    ConnectionSound (releaseStream stream c) := by
  have hclosed : ConnectionSound c.closeStreamLocked := by
    refine hc.sublist (List.Sublist.refl _) fun hnone => ?_
    rw [(hc.free hnone).1]
  rw [releaseStream]
  split
  · exact hclosed
  · rename_i hkept
    split
    · exact hclosed
    · rename_i hroom
      refine ⟨hc.held, fun hnone => ?_, fun attempt hheld s hmem => ?_, Nat.not_le.1 hroom⟩
      · have hsame : c.transport = none := hnone
        rw [hsame] at hkept
        simp at hkept
      · rcases List.mem_cons.1 hmem with rfl | hmem
        · exact hown s rfl attempt hheld
        · exact hc.idle attempt hheld s hmem

/-- What a thread holds of an attempt's transport. -/
def Thread.load (attempt : Nat) (thread : Thread) : Nat := (thread.holds attempt).toNat

/-- The open streams of the held transport are the idle ones, the thread's and others. -/
def Tallies (c : RemoteConnection) (attempt others : Nat) (thread : Thread) : Prop :=
  c.openStreams = c.idleStreams.length + (others + thread.load attempt)

/-- Releasing a stream of the transport takes it from the tally of this thread. -/
theorem releaseStream_tallies {others : Nat} (hown : stream.isOf attempt = true)
    (h : Tallies c attempt others ⟨.releasing stream, n⟩) :
    Tallies (releaseStream stream c) attempt others ⟨.finished, n⟩ := by
  have hload : Thread.load attempt ⟨.releasing stream, n⟩ = 1 := by
    show (stream.isOf attempt).toNat = 1
    rw [hown]
    rfl
  rw [Tallies, hload] at h
  have hclosed : Tallies c.closeStreamLocked attempt others ⟨.finished, n⟩ := by
    show c.openStreams - 1 = c.idleStreams.length + (others + 0)
    omega
  rw [releaseStream]
  split
  · exact hclosed
  · split
    · exact hclosed
    · show c.openStreams = c.idleStreams.length + 1 + (others + 0)
      omega

theorem releaseStream_kept (stream : Stream) (c : RemoteConnection) :
    (releaseStream stream c).transport = c.transport ∧
      (releaseStream stream c).transportGeneration = c.transportGeneration ∧
      (releaseStream stream c).attempt = c.attempt := by
  rw [releaseStream]
  split
  · exact ⟨rfl, rfl, rfl⟩
  · split <;> exact ⟨rfl, rfl, rfl⟩

/-- What one step of a thread keeps. -/
structure Keeps (c : RemoteConnection) (thread : Thread) (c' : RemoteConnection)
    (thread' : Thread) : Prop where
  connection : ConnectionSound c'
  transport : c'.transport = c.transport
  generation : c'.transportGeneration = c.transportGeneration
  attempt : c'.attempt = c.attempt
  sound : thread'.Sound c'
  tallies : ∀ attempt others, c.transport = some attempt →
    Tallies c attempt others thread → Tallies c' attempt others thread'

theorem Keeps.advances (h : Keeps c thread c' thread') : Advances c c' where
  generation := Nat.le_of_eq h.generation.symm
  attempt := Nat.le_of_eq h.attempt.symm
  transport _ attempt hheld := by rw [h.transport, hheld]

/-- A step that leaves the connection as it was. -/
theorem Keeps.same (hc : ConnectionSound c) (hthr : thread'.Sound c)
    (hload : ∀ attempt, thread'.load attempt = thread.load attempt) :
    Keeps c thread c thread' where
  connection := hc
  transport := rfl
  generation := rfl
  attempt := rfl
  sound := hthr
  tallies attempt others _ h := by rwa [Tallies, hload attempt]

/-- The streams before the one that is taken are closed, and the rest stay idle. -/
theorem Keeps.taken {closed : List Stream} (hc : ConnectionSound c)
    (hrest : rest.Sublist c.idleStreams)
    (hthr : thread'.Sound { c with idleStreams := rest, openStreams := c.openStreams - closed.length })
    (hload : ∀ attempt, c.transport = some attempt → closed.length + (rest.length + thread'.load attempt) = c.idleStreams.length + thread.load attempt) :
    Keeps c thread { c with idleStreams := rest, openStreams := c.openStreams - closed.length }
      thread' where
  connection := hc.sublist hrest fun hnone => by rw [(hc.free hnone).1, Nat.zero_sub]
  transport := rfl
  generation := rfl
  attempt := rfl
  sound := hthr
  tallies attempt others hheld h := by
    have hsame := hload attempt hheld
    rw [Tallies] at h
    show c.openStreams - closed.length = rest.length + (others + thread'.load attempt)
    omega

/-- Every step of a thread keeps the connection and the thread sound, leaves the transport as it is
and keeps the count of its streams right, whatever the other threads hold. -/
theorem ThreadStep.keeps (h : ThreadStep c thread event c' thread') (hc : ConnectionSound c)
    (hthr : thread.Sound c) (hown : HandsBackOwn c event) : Keeps c thread c' thread' := by
  cases h with
  | raises h =>
    obtain ⟨error, -, rfl⟩ | ⟨attempt, -, closed, rest, -, ⟨stream, hraised, -⟩ | ⟨hraised, -⟩⟩ :=
      acquireStream_spec hc h
    · exact .same hc (hthr.finishes _) fun _ => rfl
    · cases hraised
    · cases hraised
  | @takes retried n stream _ h =>
    obtain ⟨error, hraised, -⟩ | ⟨attempt, hheld, closed, rest, rfl,
      ⟨taken, hsame, hidle⟩ | ⟨hraised, -⟩⟩ := acquireStream_spec hc h
    · cases hraised
    · cases hsame
      have hof := hc.idle attempt hheld stream (by simp [hidle])
      have hmade : stream.identity ≤ c.attempt := by
        rw [(Stream.isOf_iff.1 hof).2.2]
        exact (hc.held attempt hheld).2.2.2
      refine .taken hc ?_ ⟨hthr, hmade⟩ fun other hother => ?_
      · rw [hidle]
        exact (List.sublist_cons_self stream rest).trans (List.sublist_append_right closed _)
      · cases Option.some.inj (hheld.symm.trans hother)
        show closed.length + (rest.length + (stream.isOf attempt).toNat) = _ + 0
        rw [hof, hidle, List.length_append, List.length_cons]
        rfl
    · cases hraised
  | proves h =>
    obtain ⟨error, hraised, -⟩ | ⟨attempt, hheld, closed, rest, rfl,
      ⟨stream, hraised, -⟩ | ⟨hsame, hidle, rfl⟩⟩ := acquireStream_spec hc h
    · cases hraised
    · cases hraised
    · cases hsame
      refine .taken hc (List.nil_sublist _) ⟨hthr, Nat.le_refl _,
        (hc.held attempt hheld).2.2.2, fun _ => ?_⟩ fun other _ => ?_
      · exact ⟨attempt, hheld, Stream.isOf_iff.2 ⟨rfl, rfl, rfl⟩⟩
      · rw [hidle]
        rfl
  | refused => exact .same hc (hthr.finishes _) fun _ => rfl
  | opened => exact .same hc hthr fun _ => rfl
  | replaced h =>
    rw [acceptProven] at h
    split at h
    · cases h
      exact .same hc (hthr.finishes _) fun _ => rfl
    · cases h
  | @accepts retried n generation stream _ h =>
    rw [acceptProven] at h
    split at h
    · cases h
    · rename_i hsame
      cases h
      obtain ⟨hissued, hgen, hident, hcur⟩ := hthr
      obtain ⟨attempt, hheld, hof⟩ := hcur (Decidable.not_not.1 hsame)
      refine ⟨⟨hc.held, fun hnone => ?_, hc.idle, hc.pool⟩, rfl, rfl, rfl, ⟨hissued, hident⟩,
        fun other others hother h => ?_⟩
      · cases hheld.symm.trans hnone
      · cases Option.some.inj (hheld.symm.trans hother)
        have hbefore : c.openStreams = c.idleStreams.length + (others + 0) := h
        show c.openStreams + 1 = c.idleStreams.length + (others + (stream.isOf attempt).toNat)
        rw [hof, hbefore]
        rfl
  | @answered retried n =>
    have hbool : retried.toNat ≤ 1 := Bool.toNat_le retried
    have hissued : n ≤ retried.toNat := hthr.1
    exact .same hc ⟨show n + 1 ≤ 2 by omega, hthr.2⟩ fun _ => rfl
  | @failed retried n =>
    have hbool : retried.toNat ≤ 1 := Bool.toNat_le retried
    have hissued : n ≤ retried.toNat := hthr.1
    refine .same hc ⟨show n + 1 ≤ 2 by omega, fun hretries => ?_, hthr.2⟩ fun _ => rfl
    -- only a request that was not retried is tried again
    rcases retried with _ | _
    · have hnone : n ≤ 0 := hissued
      exact show n + 1 ≤ 1 by omega
    · cases hretries
  | @releases n stream =>
    obtain ⟨htransport, hgen, hatt⟩ := releaseStream_kept stream c
    exact ⟨releaseStream_sound hc hown, htransport, hgen, hatt, hthr.finishes _,
      fun attempt others hheld h => releaseStream_tallies (hown stream rfl attempt hheld) h⟩
  | @discards n stream retries =>
    refine ⟨hc.sublist (List.Sublist.refl _) fun hnone => ?_, rfl, rfl, rfl, ?_,
      fun attempt others hheld h => ?_⟩
    · rw [(hc.free hnone).1]
    · rcases retries with _ | _
      · exact hthr.1
      · exact hthr.2.1 rfl
    · have hbefore : c.openStreams = c.idleStreams.length + (others + (stream.isOf attempt).toNat) :=
        h
      rw [hown stream rfl attempt hheld] at hbefore
      have hafter : Thread.load attempt ⟨if retries then .acquiring true else .finished, n⟩ = 0 := by
        cases retries <;> rfl
      rw [Tallies, hafter]
      show c.openStreams - 1 = c.idleStreams.length + (others + 0)
      rw [hbefore]
      rfl

/-! ### What holds of the world -/

/-- What holds of the connection and its threads. -/
structure World.Sound (w : World) : Prop where
  connection : ConnectionSound w.connection
  threads : ∀ thread ∈ w.threads, thread.Sound w.connection
  count : ∀ attempt, w.connection.transport = some attempt → w.connection.openStreams =
    w.connection.idleStreams.length + w.threads.countP (Thread.holds attempt)

theorem fresh_sound : World.fresh.Sound where
  connection := by
    refine ⟨fun attempt h => ?_, fun _ => ⟨rfl, rfl⟩, fun attempt h => ?_, Nat.zero_le _⟩ <;>
      cases h
  threads thread h := by cases h
  count attempt h := by cases h

theorem World.Sound.release (h : w.Sound) : World.Sound ⟨w.connection.releaseLocked, w.threads⟩ where
  connection := releaseLocked_sound _
  threads thread hmem := (h.threads thread hmem).advances (advances_releaseLocked _)
  count attempt hheld := by cases hheld

/-- No thread has a stream of the new transport. -/
theorem World.Sound.establish (outcome : Establishing) (h : w.Sound)
    (hfree : w.connection.transport = none) :
    World.Sound ⟨(RemoteConnection.establish outcome w.connection).2, w.threads⟩ where
  connection := establish_sound outcome h.connection hfree
  threads thread hmem := (h.threads thread hmem).advances (advances_establish outcome hfree)
  count attempt hheld := by
    rcases outcome with _ | _
    · have hsame : w.connection.transport = some attempt := hheld
      rw [hfree] at hsame
      cases hsame
    · cases Option.some.inj hheld
      have hnone : w.threads.countP (Thread.holds (w.connection.attempt + 1)) = 0 :=
        List.countP_eq_zero.2 fun thread hmem => by
          rw [(h.threads thread hmem).not_holds (Nat.lt_succ_self _)]
          exact Bool.false_ne_true
      show 1 = 1 + w.threads.countP (Thread.holds (w.connection.attempt + 1))
      rw [hnone]

theorem World.Sound.connect (devMode : Bool) (outcome : Establishing) (h : w.Sound) :
    World.Sound ⟨(RemoteConnection.connect devMode outcome w.connection).2, w.threads⟩ := by
  rw [RemoteConnection.connect]
  split
  · exact h
  · split
    · rcases devMode with _ | _
      · exact h
      · exact h.release.establish outcome rfl
    · rename_i hnone
      exact h.establish outcome (Option.not_isSome_iff_eq_none.1 hnone)

theorem tallies_iff {before after : List Thread} :
    Tallies c attempt (before.countP (Thread.holds attempt) +
        after.countP (Thread.holds attempt)) thread ↔
      c.openStreams = c.idleStreams.length +
        (before ++ thread :: after).countP (Thread.holds attempt) := by
  have hload : thread.load attempt = if thread.holds attempt then 1 else 0 := by
    rw [Thread.load]
    cases thread.holds attempt <;> rfl
  rw [Tallies, List.countP_append, List.countP_cons, hload, Nat.add_assoc]

/-- A step that hands back no stream of another transport keeps the world sound, whichever thread
takes it. -/
theorem CarefulStep.sound (h : CarefulStep w w') (hw : w.Sound) : w'.Sound := by
  obtain ⟨event, hstep, hown⟩ := h
  cases hstep with
  | begins =>
    refine ⟨hw.connection, fun thread hmem => ?_, fun attempt hheld => ?_⟩
    · rcases List.mem_cons.1 hmem with rfl | hmem
      · exact Nat.le_refl 0
      · exact hw.threads thread hmem
    · rw [hw.count attempt hheld]
      rfl
  | connects devMode outcome => exact hw.connect devMode outcome
  | reconnects outcome => exact hw.release.establish outcome rfl
  | closes =>
    rw [close]
    split
    · exact hw
    · exact hw.release
  | dies =>
    obtain ⟨hconnection, hthreads, hcnt⟩ := hw
    refine ⟨⟨hconnection.held, hconnection.free, hconnection.idle, hconnection.pool⟩,
      fun thread hmem => (hthreads thread hmem).advances ⟨Nat.le_refl _, Nat.le_refl _, ?_⟩,
      hcnt⟩
    exact fun _ _ hheld => hheld
  | @acts c c' before after thread thread' event hacts =>
    have hkeeps := hacts.keeps hw.connection (hw.threads thread (by simp)) hown
    refine ⟨hkeeps.connection, fun other hmem => ?_, fun attempt hheld => ?_⟩
    · rcases List.mem_append.1 hmem with hmem | hmem
      · exact (hw.threads other (by simp [hmem])).advances hkeeps.advances
      · rcases List.mem_cons.1 hmem with rfl | hmem
        · exact hkeeps.sound
        · exact (hw.threads other (by simp [hmem])).advances hkeeps.advances
    · have hbefore : c.transport = some attempt := by rw [← hkeeps.transport, hheld]
      exact tallies_iff.1
        (hkeeps.tallies attempt _ hbefore (tallies_iff.2 (hw.count attempt hbefore)))

theorem sound_of_careful (h : Relation.ReflTransGen CarefulStep World.fresh w) : w.Sound := by
  induction h with
  | refl => exact fresh_sound
  | tail _ hstep ih => exact hstep.sound ih

/-! ### Requests ride the held channel -/

/-- A stream that is acquired belongs to the transport that is held. -/
theorem ThreadStep.acquired (h : ThreadStep c thread event c' thread') (hc : ConnectionSound c)
    (hthr : thread.Sound c) (hev : event = .acquired stream) :
    ∃ attempt, c'.transport = some attempt ∧ stream.isOf attempt = true := by
  cases h with
  | takes h =>
    cases hev
    obtain ⟨_, hraised, -⟩ | ⟨attempt, hheld, _, _, rfl,
      ⟨taken, hsame, hidle⟩ | ⟨hraised, -⟩⟩ := acquireStream_spec hc h
    · cases hraised
    · cases hsame
      exact ⟨attempt, hheld, hc.idle attempt hheld stream (by simp [hidle])⟩
    · cases hraised
  | accepts h =>
    cases hev
    rw [acceptProven] at h
    split at h
    · cases h
    · rename_i hsame
      cases h
      exact hthr.2.2.2 (Decidable.not_not.1 hsame)
  | raises _ | proves _ | refused | opened _ | replaced _ | answered _ | failed _ _ | releases
  | discards => cases hev

theorem ThreadStep.attempt_eq (h : ThreadStep c thread event c' thread')
    (hc : ConnectionSound c) : c'.attempt = c.attempt := by
  have hacquire : ∀ result, acquireStream c = (result, c') → c'.attempt = c.attempt := by
    intro result hres
    obtain ⟨_, -, rfl⟩ | ⟨attempt, -, _, _, rfl, -⟩ := acquireStream_spec hc hres
    · rfl
    · rfl
  have haccept : ∀ generation result, acceptProven generation c = (result, c') →
      c'.attempt = c.attempt := by
    intro generation result hres
    rw [acceptProven] at hres
    split at hres <;> cases hres <;> rfl
  cases h with
  | raises h | takes h | proves h => exact hacquire _ h
  | replaced h | accepts h => exact haccept _ _ h
  | refused | opened _ | answered _ | failed _ _ | discards => rfl
  | releases => exact (releaseStream_kept _ c).2.2

/-- A step makes at most one attempt to establish a transport. -/
theorem Step.attempt_le (h : Step w event w') (hc : ConnectionSound w.connection) :
    w'.connection.attempt ≤ w.connection.attempt + 1 := by
  have hestablish : ∀ outcome (c : RemoteConnection),
      (establish outcome c).2.attempt = c.attempt + 1 := by
    intro outcome c
    cases outcome <;> rfl
  cases h with
  | begins | dies => exact Nat.le_succ _
  | connects devMode outcome =>
    show (connect devMode outcome w.connection).2.attempt ≤ w.connection.attempt + 1
    rw [connect]
    split
    · exact Nat.le_succ _
    · split
      · rcases devMode with _ | _
        · exact Nat.le_succ _
        · exact Nat.le_of_eq (hestablish _ _)
      · exact Nat.le_of_eq (hestablish _ _)
  | reconnects => exact Nat.le_of_eq (hestablish _ _)
  | closes =>
    show (close w.connection).attempt ≤ w.connection.attempt + 1
    rw [close]
    split <;> exact Nat.le_succ _
  | acts h =>
    rw [h.attempt_eq hc]
    exact Nat.le_succ _

theorem World.Sound.ridesHeldChannel (h : w.Sound) : w.RidesHeldChannel where
  acquired stream w' hstep := by
    obtain ⟨c, threads⟩ := w
    cases hstep with
    | acts hacts => exact hacts.acquired h.connection (h.threads _ (by simp)) rfl
  pool := h.connection.pool
  openStreams := by
    rw [World.heldStreams]
    split
    · rename_i hnone
      exact (h.connection.free hnone).1
    · rename_i attempt hheld
      rw [h.count attempt hheld, List.countP_eq_length.2 (h.connection.idle attempt hheld)]
  builds event w' hstep := hstep.attempt_le h.connection
  issued thread hmem := (h.threads thread hmem).issued_le

/-- In every run in which what is handed back belongs to the held transport, every request rides
the held channel. -/
theorem requests_ride_held_channel (h : Relation.ReflTransGen CarefulStep World.fresh w) :
    w.RidesHeldChannel :=
  (sound_of_careful h).ridesHeldChannel

/-! ### A replaced channel's stream -/

/-- A thread has the first stream when the channel is replaced. -/
def connectedOnce : RemoteConnection := (connect false (.succeeds true) .fresh).2
def takenOnce : RemoteConnection := (acquireStream connectedOnce).2
def firstStream : Stream := ⟨1, 1, 1, true⟩
def replacedOnce : RemoteConnection := (reconnect (.succeeds true) takenOnce).2

theorem Step.one (h : ThreadStep c thread event c' thread') :
    Step ⟨c, [thread]⟩ event ⟨c', [thread']⟩ :=
  @Step.acts c c' [] [] thread thread' event h

theorem takes_first : ThreadStep connectedOnce ⟨.acquiring false, 0⟩ (.acquired firstStream)
    takenOnce ⟨.requesting false firstStream, 0⟩ :=
  .takes rfl

/-- A sample thread begins, connects, takes its stream, is answered and releases it: its one request
rode the channel that is held. -/
theorem requests_ride_held_channel_once :
    World.RidesHeldChannel ⟨releaseStream firstStream takenOnce, [⟨.finished, 1⟩]⟩ := by
  have hsilent : ∀ c, HandsBackOwn c .silent := fun c stream h => by cases h
  have hacquired : HandsBackOwn connectedOnce (.acquired firstStream) := fun stream h => by cases h
  refine requests_ride_held_channel
    (.tail (.tail (.tail (.tail (.tail .refl ⟨_, .begins, hsilent _⟩)
      ⟨_, .connects false (.succeeds true), hsilent _⟩)
      ⟨_, .one takes_first, hacquired⟩)
      ⟨_, .one (.answered true), hsilent _⟩)
      ⟨_, .one .releases, fun stream h attempt hheld => ?_⟩)
  cases h
  cases hheld
  rfl

/-- The stream of the first transport is pooled with the second one's, and returned again. -/
theorem requests_do_not_ride_held_channel :
    ¬ ∀ w, Relation.ReflTransGen (fun w w' => ∃ event, Step w event w') World.fresh w →
      w.RidesHeldChannel := by
  intro hall
  have hrides := hall ⟨releaseStream firstStream replacedOnce,
      [⟨.acquiring false, 0⟩, ⟨.finished, 1⟩]⟩
    (.tail (.tail (.tail (.tail (.tail (.tail (.tail .refl ⟨_, .begins⟩)
      ⟨_, .connects false (.succeeds true)⟩)
      ⟨_, .one takes_first⟩)
      ⟨_, .reconnects (.succeeds true)⟩)
      ⟨_, .one (.answered true)⟩)
      ⟨_, .one .releases⟩)
      ⟨_, .begins⟩)
  have htakes : ThreadStep (releaseStream firstStream replacedOnce) ⟨.acquiring false, 0⟩
      (.acquired firstStream) (acquireStream (releaseStream firstStream replacedOnce)).2
      ⟨.requesting false firstStream, 0⟩ := .takes rfl
  obtain ⟨attempt, hheld, hof⟩ := hrides.acquired firstStream _
    (@Step.acts _ _ [] [⟨.finished, 1⟩] _ _ _ htakes)
  have hsecond : some 2 = some attempt := hheld
  cases hsecond
  exact absurd hof (by decide)

/-! ### Streams of one transport -/

/-- The stream was proven against the transport of one attempt that was made. -/
def Stream.Unmixed (made : Nat) (stream : Stream) : Prop :=
  ∃ attempt ≤ made, stream.isOf attempt = true

/-- The stream that a thread opens or has. -/
def Thread.stream? (thread : Thread) : Option Stream :=
  match thread.phase with
  | .proving _ proving => some ⟨proving.endpoint, proving.nonce, proving.identity, true⟩
  | .proven _ _ stream | .requesting _ stream | .releasing stream | .discarding stream _ =>
    some stream
  | .acquiring _ | .finished => none

/-- The parts of a held transport are of one attempt, and the idle streams are unmixed. -/
structure ConnectionUnmixed (c : RemoteConnection) : Prop where
  held : ∀ attempt, c.transport = some attempt → c.endpoint = some attempt ∧
    c.bootstrap = some attempt ∧ c.nonce = some attempt ∧ attempt ≤ c.attempt
  idle : ∀ stream ∈ c.idleStreams, stream.Unmixed c.attempt

/-- No stream is of two transports. -/
structure World.Unmixed (w : World) : Prop where
  connection : ConnectionUnmixed w.connection
  threads : ∀ thread ∈ w.threads, ∀ stream ∈ thread.stream?, stream.Unmixed w.connection.attempt

theorem Stream.Unmixed.mono {stream : Stream} {made made' : Nat} (h : stream.Unmixed made)
    (hle : made ≤ made') : stream.Unmixed made' := by
  obtain ⟨attempt, hmade, hof⟩ := h
  exact ⟨attempt, Nat.le_trans hmade hle, hof⟩

theorem connectionUnmixed_releaseLocked (c : RemoteConnection) :
    ConnectionUnmixed c.releaseLocked := by
  constructor <;> intro _ h <;> cases h

/-- A transport and its first stream are of the next attempt. -/
theorem ConnectionUnmixed.establish (hc : ConnectionUnmixed c) (outcome : Establishing) :
    ConnectionUnmixed (establish outcome c).2 ∧ (establish outcome c).2.attempt = c.attempt + 1 := by
  have hle := Nat.le_succ c.attempt
  cases outcome with
  | fails =>
    refine ⟨⟨fun attempt h => ?_, fun stream h => (hc.idle stream h).mono hle⟩, rfl⟩
    obtain ⟨hendp, hboot, hnonce, hmade⟩ := hc.held attempt h
    exact ⟨hendp, hboot, hnonce, Nat.le_trans hmade hle⟩
  | succeeds hasSock =>
    refine ⟨⟨fun attempt h => ?_, fun stream h => ?_⟩, rfl⟩
    · cases h
      exact ⟨rfl, rfl, rfl, Nat.le_refl _⟩
    · rw [List.mem_singleton.1 h]
      exact ⟨_, Nat.le_refl _, Stream.isOf_iff.2 ⟨rfl, rfl, rfl⟩⟩

/-- What a thread takes from the pool, or is to prove, is of one transport. -/
theorem acquireStream_unmixed {result : Acquiring} (hc : ConnectionUnmixed c)
    (h : acquireStream c = (result, c')) : ConnectionUnmixed c' ∧ c'.attempt = c.attempt ∧
      (∀ stream, result = .pooled stream → stream.Unmixed c.attempt) ∧
      ∀ p, result = .unproven p → Stream.Unmixed c.attempt ⟨p.endpoint, p.nonce, p.identity, true⟩ := by
  rw [acquireStream] at h
  split at h
  · cases h
    exact ⟨hc, rfl, nofun, nofun⟩
  -- from here on a transport is held, and its attempt is the one asked for
  rename_i hsome
  obtain ⟨attempt, hheld⟩ := Option.ne_none_iff_exists'.1 (mt Option.isNone_iff_eq_none.2 hsome)
  obtain ⟨hendp, hboot, hnonce, hmade⟩ := hc.held attempt hheld
  split at h
  · cases h
    exact ⟨hc, rfl, nofun, nofun⟩
  split at h <;> rename_i htaken <;> obtain ⟨closed, rest, hidle, rfl, -⟩ := takeIdle_spec htaken
  · cases h
    rw [Option.toList_some, List.singleton_append] at hidle
    have hmem : ∀ stream ∈ _ :: rest, stream.Unmixed c.attempt := fun stream h =>
      hc.idle stream (hidle ▸ List.mem_append_right closed h)
    exact ⟨⟨hc.held, fun stream h => hmem stream (.tail _ h)⟩, rfl,
      fun stream h => by cases h; exact hmem _ (.head _), nofun⟩
  · have hrest : ∀ stream ∈ rest, stream.Unmixed c.attempt := fun stream h =>
      hc.idle stream (hidle ▸ List.mem_append_right closed h)
    simp only [hendp, hboot, hnonce] at h
    cases h
    refine ⟨⟨fun other hother => ?_, hrest⟩, rfl, nofun, fun p h => ?_⟩
    · cases hheld.symm.trans hother
      exact ⟨rfl, rfl, rfl, hmade⟩
    · cases h
      exact ⟨attempt, hmade, Stream.isOf_iff.2 ⟨rfl, rfl, rfl⟩⟩

/-- **A step of a thread** leaves every stream unmixed. -/
theorem ThreadStep.unmixed (h : ThreadStep c thread event c' thread') (hc : ConnectionUnmixed c)
    (hthr : ∀ stream ∈ thread.stream?, stream.Unmixed c.attempt) : ConnectionUnmixed c' ∧
      c'.attempt = c.attempt ∧ ∀ stream ∈ thread'.stream?, stream.Unmixed c.attempt := by
  cases h with
  | raises h | takes h | proves h =>
    obtain ⟨hc', hatt, hpooled, hproving⟩ := acquireStream_unmixed hc h
    refine ⟨hc', hatt, fun stream hs => ?_⟩
    cases hs <;> first | exact hpooled _ rfl | exact hproving _ rfl
  | refused => exact ⟨hc, rfl, nofun⟩
  | opened | answered | failed =>
    have hof := hthr _ rfl
    exact ⟨hc, rfl, fun stream hs => by cases hs; exact hof⟩
  | replaced h | accepts h =>
    rw [acceptProven] at h
    split at h <;> cases h
    exact ⟨⟨hc.held, hc.idle⟩, rfl, fun stream hs => by first | exact hthr stream hs | cases hs⟩
  | @releases n stream =>
    refine ⟨?_, (releaseStream_kept stream c).2.2, nofun⟩
    rw [releaseStream]
    split_ifs
    · exact ⟨hc.held, hc.idle⟩
    · exact ⟨hc.held, hc.idle⟩
    · exact ⟨hc.held, List.forall_mem_cons.2 ⟨hthr stream rfl, hc.idle⟩⟩
  | @discards n stream retries =>
    refine ⟨⟨hc.held, hc.idle⟩, rfl, ?_⟩
    cases retries <;> exact nofun

/-- **One step of the world.** -/
theorem Step.unmixed (h : Step w event w') (hw : w.Unmixed) : w'.Unmixed := by
  have hlater : ∀ {c'}, ConnectionUnmixed c' → w.connection.attempt ≤ c'.attempt →
      World.Unmixed ⟨c', w.threads⟩ := fun hc' hle =>
    ⟨hc', fun thread hmem stream hs => (hw.threads thread hmem stream hs).mono hle⟩
  have hmade : ∀ {c}, ConnectionUnmixed c → c.attempt = w.connection.attempt → ∀ outcome,
      World.Unmixed ⟨(establish outcome c).2, w.threads⟩ := fun hc heq outcome =>
    hlater (hc.establish outcome).1 (by rw [(hc.establish outcome).2, heq]; exact Nat.le_succ _)
  have hfree := connectionUnmixed_releaseLocked w.connection
  cases h with
  | begins => exact ⟨hw.connection, List.forall_mem_cons.2 ⟨nofun, hw.threads⟩⟩
  | connects devMode outcome =>
    unfold connect
    split_ifs
    · exact hw
    · exact hmade hfree rfl outcome
    · exact hw
    · exact hmade hw.connection rfl outcome
  | reconnects outcome => exact hmade hfree rfl outcome
  | closes =>
    unfold close
    split_ifs
    · exact hw
    · exact hlater hfree (Nat.le_refl _)
  | dies => exact ⟨⟨hw.connection.held, hw.connection.idle⟩, hw.threads⟩
  | @acts c c' before after thread thread' _ h =>
    obtain ⟨hc', hatt, hthr⟩ := h.unmixed hw.connection (hw.threads thread (by simp))
    refine ⟨hc', fun other hmem => ?_⟩
    show ∀ stream ∈ other.stream?, stream.Unmixed c'.attempt
    rw [hatt]
    rcases List.mem_append.1 hmem with hmem | hmem
    · exact hw.threads other (by simp [hmem])
    · rcases List.mem_cons.1 hmem with rfl | hmem
      · exact hthr
      · exact hw.threads other (by simp [hmem])

/-- **Streams are never mixed**, in every run of any steps by any threads. -/
theorem streams_unmixed (h : Relation.ReflTransGen (fun w w' => ∃ event, Step w event w') .fresh w) :
    w.Unmixed := by
  induction h with
  | refl => exact ⟨⟨nofun, nofun⟩, nofun⟩
  | tail _ hstep ih =>
    obtain ⟨_, hstep⟩ := hstep
    exact hstep.unmixed ih

/-- Unmixed too is the pool that holds streams of two transports. -/
theorem streams_unmixed_once :
    World.Unmixed ⟨releaseStream firstStream replacedOnce, [⟨.finished, 1⟩]⟩ :=
  streams_unmixed (.tail (.tail (.tail (.tail (.tail (.tail .refl ⟨_, .begins⟩)
    ⟨_, .connects false (.succeeds true)⟩) ⟨_, .one takes_first⟩)
    ⟨_, .reconnects (.succeeds true)⟩) ⟨_, .one (.answered true)⟩) ⟨_, .one .releases⟩)

end ClioQueue.Remote
