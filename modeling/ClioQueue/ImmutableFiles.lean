/-
# Immutable session files

`_OwnedSessionTransaction.atomic_write_immutable` of `clio_relay/session_transaction.py` with
`read_bytes` and `unlink_verified`, on POSIX.

A call installs a file under its final name by way of a pending one, and the lock of the session
lets one call act at a time.  All files are the relay's own (regular, of its user, of mode 0600),
so of the checks on a file those of its link count, its number and its size are left, and what is
read twice in a row is read once.  The payload is staged byte by byte: a call that stops leaves any
prefix of it.
-/

import ClioQueue.Durable.Program

namespace ClioQueue

open Durable Durable.Prog

/-- A regular file: its inode number and its bytes. -/
structure SessionInode where
  inode : Nat
  bytes : List UInt8

/-- The two names, and the number of the next file. -/
structure SessionDirectory where
  final : Option SessionInode
  pending : Option SessionInode
  next : Nat

/-- What a session operation raises. -/
inductive SessionError where
  | value (message : String)
  | relay (message : String)

abbrev SessionOp := Prog SessionDirectory Unit SessionError

/-- `st_nlink`. -/
def SessionDirectory.nlink (d : SessionDirectory) (file : SessionInode) : Nat :=
  (d.final.toList ++ d.pending.toList).countP fun other => other.inode == file.inode

/-- `_validate_owned_session_filename`. -/
def isOwnedSessionFilename (name : String) : Bool :=
  name != "" && !name.toList.contains '/' && name != "." && name != ".."

/-- `read_candidate`, of the pending name. -/
def readCandidate (name : String) (expectedNlink maximumBytes : Nat) :
    SessionOp (List UInt8) := do
  let d ← look id
  match d.pending with
  | none => raise (.relay s!"owned session immutable candidate cannot be read safely: .{name}.pending")
  | some opened => do
    require (d.nlink opened == expectedNlink && decide (opened.bytes.length ≤ maximumBytes))
      (.relay s!"owned session immutable candidate is unsafe: .{name}.pending")
    pure opened.bytes

/-- `read_bytes` with `required=False`. -/
def readBytes (name : String) (file : SessionDirectory → Option SessionInode)
    (maximumBytes : Nat) : SessionOp (Option (List UInt8)) := do
  let d ← look id
  match file d with
  | none => pure none
  | some opened => do
    require (d.nlink opened == 1)
      (.relay s!"owned session file is not one owner-private regular file: {name}")
    require (decide (opened.bytes.length ≤ maximumBytes))
      (.relay s!"owned session file exceeds its byte limit: {name}")
    pure (some opened.bytes)

/-- `unlink_verified` without a digest, of the pending name. -/
def unlinkVerified (name : String) (expected : SessionInode) : SessionOp Unit := do
  let d ← look id
  match d.pending with
  | none => pure ()
  | some linked => do
    require (d.nlink linked == 1)
      (.relay s!"owned session file is not one owner-private regular file: .{name}.pending")
    require (linked.inode == expected.inode && linked.bytes.length == expected.bytes.length)
      (.relay s!"owned session file identity changed before deletion: .{name}.pending")
    durably fun d => { d with pending := none }

/-- The recovery of a call that stopped between the link and the removal of the pending name. -/
def recoverLinked (name : String) (payload : List UInt8) (maximumBytes : Nat) :
    SessionOp (Option SessionInode) := do
  let d ← look id
  match d.final, d.pending with
  | some final, some pending => do
    require (final.inode == pending.inode)
      (.relay s!"owned session immutable publication is ambiguous: {name}")
    require (d.nlink final == 2)
      (.relay s!"owned session immutable publication is unsafe: {name}")
    let linkedPayload ← readCandidate name 2 maximumBytes
    require (linkedPayload == payload)
      (.relay s!"owned session immutable linked file differs: {name}")
    durably fun d => { d with pending := none }
    pure none
  | _, pendingStatus => pure pendingStatus

/-- A staged file with other bytes is removed. -/
def dropStaged (name : String) (payload : List UInt8) (maximumBytes : Nat) :
    Option SessionInode → SessionOp (Option SessionInode)
  | none => pure none
  | some pending => do
    let staged ← readCandidate name 1 maximumBytes
    if staged = payload then pure (some pending)
    else do
      unlinkVerified name pending
      pure none

/-- The payload is staged under the pending name, unless it is there. -/
def stage (name : String) (payload : List UInt8) : Option SessionInode → SessionOp Unit
  | some _ => pure ()
  | none => do
    let d ← look id
    require d.pending.isNone
      (.relay s!"owned session immutable file cannot be staged safely: {name}")
    durably fun d => { d with pending := some ⟨d.next, []⟩, next := d.next + 1 }
    each (fun byte => durably fun d =>
      { d with pending := d.pending.map fun f => { f with bytes := f.bytes ++ [byte] } }) payload

/-- The staged file is read again and gets the final name. -/
def publish (name : String) (payload : List UInt8) (maximumBytes : Nat) : SessionOp Unit := do
  let staged ← readBytes s!".{name}.pending" (·.pending) maximumBytes
  require (staged == some payload)
    (.relay s!"owned session immutable pending file differs: {name}")
  let d ← look id
  match d.final with
  | some _ => do
    let winner ← readBytes name (·.final) maximumBytes
    require (winner == some payload)
      (.relay s!"owned session immutable file already differs: {name}")
  | none => durably fun d => { d with final := d.pending }
  durably fun d => { d with pending := none }
  let reread ← readBytes name (·.final) maximumBytes
  require (reread == some payload)
    (.relay s!"owned session immutable file changed after commit: {name}")

/-- `atomic_write_immutable`.  The pending name is a safe basename when the name is one. -/
def atomicWriteImmutable (name : String) (payload : List UInt8) (maximumBytes : Nat) :
    SessionOp Unit := do
  require (isOwnedSessionFilename name)
    (.relay "owned session filename must be one safe basename")
  require (decide (0 < maximumBytes)) (.value "maximum_bytes must be positive")
  require (!payload.isEmpty && decide (payload.length ≤ maximumBytes))
    (.relay s!"owned session immutable write exceeds its byte limit: {name}")
  let pendingStatus ← recoverLinked name payload maximumBytes
  match ← readBytes name (·.final) maximumBytes with
  | some existing =>
    require (existing == payload) (.relay s!"owned session immutable file already differs: {name}")
  | none => do
    let pendingStatus ← dropStaged name payload maximumBytes pendingStatus
    stage name payload pendingStatus
    publish name payload maximumBytes

variable {name : String} {payload : List UInt8} {maximumBytes : Nat} {d t : SessionDirectory}

/-- **What every stop leaves**: short files, and one file when both names are there. -/
structure SessionDirectory.Sound (maximumBytes : Nat) (d : SessionDirectory) : Prop where
  final : ∀ file, d.final = some file → file.bytes.length ≤ maximumBytes
  pending : ∀ file, d.pending = some file → file.bytes.length ≤ maximumBytes
  linked : ∀ file other, d.final = some file → d.pending = some other → other = file

/-- What a call may do to the final name. -/
structure Published (maximumBytes : Nat) (payload : List UInt8) (d t : SessionDirectory) :
    Prop where
  sound : t.Sound maximumBytes
  kept : ∀ file, d.final = some file → t.final = some file
  own : d.final = none → ∀ file, t.final = some file → file.bytes = payload

theorem Published.refl (h : d.Sound maximumBytes) : Published maximumBytes payload d d :=
  ⟨h, fun _ h => h, fun hnone _ hsome => nomatch hnone.symm.trans hsome⟩

/-- A staged file is removed. -/
theorem Published.dropped {pending : Option SessionInode} {next next' : Nat} :
    Published maximumBytes payload ⟨none, pending, next⟩ ⟨none, none, next'⟩ :=
  ⟨⟨nofun, nofun, nofun⟩, nofun, nofun⟩

/-- The pending name of a published file is removed. -/
theorem Published.unlinked {file : SessionInode} {pending : Option SessionInode} {next : Nat}
    (h : file.bytes.length ≤ maximumBytes) :
    Published maximumBytes payload ⟨some file, pending, next⟩ ⟨some file, none, next⟩ :=
  ⟨⟨by simpa using h, nofun, nofun⟩, fun _ h => h, nofun⟩

section

variable {C : SessionDirectory → Prop} {Q : Unit → SessionDirectory → Unit → Prop}
  {E : SessionError → SessionDirectory → Unit → Prop} {inode next : Nat}

/-- **Staging** leaves every prefix of the payload, and then the payload. -/
theorem wp_stageBytes {rest p : List UInt8}
    (hC : ∀ part, part <+: p ++ rest → C ⟨none, some ⟨inode, part⟩, next⟩)
    (hQ : Q () ⟨none, some ⟨inode, p ++ rest⟩, next⟩ ()) :
    wp (each (fun byte => durably fun d =>
      { d with pending := d.pending.map fun f => { f with bytes := f.bytes ++ [byte] } }) rest :
        SessionOp Unit) C Q E ⟨none, some ⟨inode, p⟩, next⟩ () := by
  induction rest generalizing p with
  | nil =>
    rw [List.append_nil] at hQ
    exact (wp_pure _).2 hQ
  | cons byte rest ih =>
    rw [List.append_cons] at hC hQ
    rw [each, wp_bind]
    exact (wp_durably _).2 ⟨hC _ (List.prefix_append ..), ih hC hQ⟩

theorem wp_publish (hle : payload.length ≤ maximumBytes)
    (hlink : C ⟨some ⟨inode, payload⟩, some ⟨inode, payload⟩, next⟩)
    (hC : C ⟨some ⟨inode, payload⟩, none, next⟩)
    (hQ : Q () ⟨some ⟨inode, payload⟩, none, next⟩ ()) :
    wp (publish name payload maximumBytes) C Q E ⟨none, some ⟨inode, payload⟩, next⟩ () := by
  simp [readBytes, publish, SessionDirectory.nlink, hle, hlink, hC, hQ]

end

/-- **One call** from what any stop leaves. -/
theorem wp_atomicWriteImmutable (hname : isOwnedSessionFilename name = true)
    (h : d.Sound maximumBytes) :
    wp (atomicWriteImmutable name payload maximumBytes) (Published maximumBytes payload d)
      (fun _ t _ => Published maximumBytes payload d t ∧
        t.final.map (·.bytes) = some payload ∧ t.pending = none)
      (fun _ t _ => t = d ∧ (payload ≠ [] → payload.length ≤ maximumBytes →
        ∃ file, d.final = some file ∧ file.bytes ≠ payload)) d () := by
  obtain ⟨final, pending, next⟩ := d
  obtain ⟨hfinal, hpend, hlinked⟩ := h
  unfold atomicWriteImmutable
  refine wp_require_then (fun _ => ?_) fun hno => absurd hname (by simp [hno])
  refine wp_require_then (fun _ => ?_) fun hno => ⟨rfl, fun hne hle => ?_⟩
  swap
  · exact absurd (Nat.lt_of_lt_of_le (List.length_pos_of_ne_nil hne) hle) (of_decide_eq_false hno)
  refine wp_require_then (fun hin => ?_) fun hno => ⟨rfl, fun hne hle => ?_⟩
  swap
  · simp [hne, hle] at hno
  have hle : payload.length ≤ maximumBytes := by
    rw [Bool.and_eq_true, decide_eq_true_eq] at hin
    exact hin.2
  rcases final with _ | file
  · generalize hP : Published maximumBytes payload ⟨none, pending, next⟩ = P
    have hdone : ∀ inode next', P ⟨some ⟨inode, payload⟩, none, next'⟩ := fun inode next' =>
      hP ▸ ⟨⟨by simpa using hle, nofun, nofun⟩, nofun, by simp⟩
    have hlink : ∀ inode next', P ⟨some ⟨inode, payload⟩, some ⟨inode, payload⟩, next'⟩ :=
      fun inode next' => hP ▸ ⟨⟨by simpa using hle, by simpa using hle, by simp⟩, nofun, by simp⟩
    have hpart : ∀ inode next' part, part <+: payload → P ⟨none, some ⟨inode, part⟩, next'⟩ :=
      fun inode next' part hpart => hP ▸
        ⟨⟨nofun, by simpa using Nat.le_trans hpart.length_le hle, nofun⟩, nofun, nofun⟩
    have hinstall : ∀ (E : SessionError → SessionDirectory → Unit → Prop) next',
        wp (stage name payload none) P (fun _ t w => wp (publish name payload maximumBytes) P
          (fun _ t _ => P t ∧ t.final.map (·.bytes) = some payload ∧ t.pending = none) E t w) E
          ⟨none, none, next'⟩ () := by
      intro E next'
      simp only [stage, wp_bind, wp_look, wp_require, wp_durably]
      refine ⟨fun _ => ⟨hpart _ _ [] List.nil_prefix, ?_⟩, fun hno => by simp at hno⟩
      refine wp_stageBytes (p := []) (fun part h => hpart _ _ part h) ?_
      exact wp_publish hle (hlink _ _) (hdone _ _) ⟨hdone _ _, rfl, rfl⟩
    rcases pending with _ | ⟨inode, staged⟩
    · simp only [recoverLinked, readBytes, dropStaged, wp_bind, wp_look, wp_pure, id_eq]
      exact hinstall _ _
    · have hlen := hpend _ rfl
      simp only [recoverLinked, readBytes, readCandidate, dropStaged, unlinkVerified, wp_bind,
        wp_look, wp_pure, id_eq]
      refine (wp_require _ _).2 ⟨fun _ => ?_, fun hno => ?_⟩
      · refine wp_cases (fun heq => ?_) fun _ => ?_
        · subst heq
          refine (wp_pure _).2 ((wp_pure ()).2 ?_)
          exact wp_publish hle (hlink _ _) (hdone _ _) ⟨hdone _ _, rfl, rfl⟩
        · simp only [wp_bind, wp_look, wp_require, wp_durably, wp_pure, id_eq]
          refine ⟨fun _ => ⟨fun _ => ⟨hP ▸ .dropped, hinstall _ _⟩,
            fun hno => ?_⟩, fun hno => ?_⟩
          · simp at hno
          · simp [SessionDirectory.nlink] at hno
      · simp [SessionDirectory.nlink, hlen] at hno
  · have hsame : Published maximumBytes payload ⟨some file, pending, next⟩ ⟨some file, none, next⟩ :=
      .unlinked (hfinal file rfl)
    rcases pending with _ | staged
    · simp +contextual [recoverLinked, readBytes, SessionDirectory.nlink, hfinal, hsame]
    · obtain rfl := hlinked _ _ rfl rfl
      simp +contextual [recoverLinked, readBytes, readCandidate, SessionDirectory.nlink, hfinal, hsame]
      exact fun heq => heq ▸ hfinal _ rfl

/-- The directories that calls on one name leave, each stopped after any of its steps, with their
payloads. -/
inductive SessionCalls (name : String) (maximumBytes : Nat) (d : SessionDirectory) :
    List (List UInt8) → SessionDirectory → Prop
  | start : SessionCalls name maximumBytes d [] d
  | call {payloads payload t u} (before : SessionCalls name maximumBytes d payloads t)
    (stop : u ∈ (atomicWriteImmutable name payload maximumBytes).halts t ()) :
    SessionCalls name maximumBytes d (payload :: payloads) u

/-- **A run** keeps the directory sound and the final file what it is. -/
theorem SessionCalls.published {payloads : List (List UInt8)}
    (hname : isOwnedSessionFilename name = true) (h : d.Sound maximumBytes)
    (hrun : SessionCalls name maximumBytes d payloads t) : t.Sound maximumBytes ∧
      (∀ file, d.final = some file → t.final = some file) ∧
      (d.final = none → ∀ file, t.final = some file → file.bytes ∈ payloads) := by
  induction hrun with
  | start => exact ⟨h, fun _ h => h, fun hnone file hsome => nomatch hnone.symm.trans hsome⟩
  | @call payloads payload t u _ hstop ih =>
    obtain ⟨hsound, hkept, hown⟩ := ih
    have hstep : Published maximumBytes payload t u := by
      refine wp_halts (wp_mono (wp_atomicWriteImmutable hname hsound) (fun _ h => h)
        (fun _ _ _ h => h.1) fun _ _ _ hraised => ?_) (.refl hsound) u hstop
      rw [hraised.1]
      exact .refl hsound
    refine ⟨hstep.sound, fun file hfile => hstep.kept file (hkept file hfile),
      fun hnone file hfile => ?_⟩
    rcases hmid : t.final with _ | other
    · rw [hstep.own hmid file hfile]
      exact .head _
    · cases (hstep.kept other hmid).symm.trans hfile
      exact .tail _ (hown hnone _ hmid)

/-- **Published exactly once.**  After any calls, each stopped after any step, the final file is
absent or the payload of one call, and later calls leave it as it is.  A call that runs to its end
raises when the final file is another one; else it returns, and leaves its payload and no staged
file. -/
theorem immutable_published_once {payloads : List (List UInt8)}
    (hname : isOwnedSessionFilename name = true)
    (hrun : SessionCalls name maximumBytes ⟨none, none, 0⟩ payloads d) :
    (∀ file, d.final = some file → file.bytes ∈ payloads ∧
      ∀ later t, SessionCalls name maximumBytes d later t → t.final = some file) ∧
    ∀ payload, payload ≠ [] → payload.length ≤ maximumBytes →
      let o := (atomicWriteImmutable name payload maximumBytes).run d ()
      if d.final.all fun file => file.bytes = payload then
        o.result = .ok () ∧ o.store.final.map (·.bytes) = some payload ∧ o.store.pending = none
      else (∃ error, o.result = .error error) ∧ o.store.final = d.final := by
  have hstart : SessionDirectory.Sound maximumBytes ⟨none, none, 0⟩ := ⟨nofun, nofun, nofun⟩
  obtain ⟨hsound, -, hown⟩ := hrun.published hname hstart
  refine ⟨fun file hfile => ⟨hown rfl file hfile, fun later t hlater =>
    (hlater.published hname hsound).2.1 file hfile⟩, fun payload hne hle => ?_⟩
  have hcall := (@wp_atomicWriteImmutable _ payload _ _ hname hsound).2
  dsimp only
  rcases hres : ((atomicWriteImmutable name payload maximumBytes).run d ()).result with error | _
  · rw [hres] at hcall
    obtain ⟨file, hfile, hother⟩ := hcall.2 hne hle
    rw [hfile, if_neg (by simpa using hother), hcall.1]
    exact ⟨⟨error, rfl⟩, hfile⟩
  · rw [hres] at hcall
    obtain ⟨hpub, hfinal, hpend⟩ := hcall
    rw [if_pos, hfinal, hpend]
    · exact ⟨rfl, rfl, rfl⟩
    · rcases hold : d.final with _ | file
      · rfl
      · rw [hpub.kept file hold] at hfinal
        simpa using hfinal

/-- A call that stops between the link and the removal of the pending name. -/
theorem immutable_published_once_sample : ∃ d : SessionDirectory, d.pending.isSome ∧
    ∀ file, d.final = some file → file.bytes ∈ [[7]] ∧
      ∀ later t, SessionCalls "a" 4 d later t → t.final = some file :=
  ⟨⟨some ⟨0, [7]⟩, some ⟨0, [7]⟩, 1⟩, rfl, (immutable_published_once (by decide)
    (.call .start (List.mem_of_getElem? (i := 3) rfl))).1⟩

end ClioQueue
