/-
# One held channel

`RemoteConnection`: a transport is established once and held, and requests ride HTTP streams over
it.  The streams are pooled; each one was proven against the bring-up identity of the transport it
was opened over.  The sections under the lock are functions of the connection.  The channel events,
which nothing here reads, are left out.
-/

import Mathlib.Tactic.Common

namespace ClioQueue.Remote

/-- `MAX_POOLED_CHANNEL_STREAMS`. -/
def maxPooledChannelStreams : Nat := 8

/-- An HTTP stream.  Every attempt to establish a transport has an endpoint, a nonce and a bring-up
identity of its own; the stream was opened and proven with those of the attempts it names. -/
structure Stream where
  endpoint : Nat
  nonce : Nat
  identity : Nat
  hasSock : Bool
deriving DecidableEq

/-- The stream was proven against the transport of the attempt. -/
def Stream.isOf (attempt : Nat) (stream : Stream) : Bool :=
  stream.endpoint = attempt && stream.nonce = attempt && stream.identity = attempt

/-- The state of a `RemoteConnection`.  A transport, its endpoint, its bring-up document and its
nonce are named by their attempt; the idle streams stand with the newest first. -/
structure RemoteConnection where
  transport : Option Nat
  isAlive : Bool
  endpoint : Option Nat
  bootstrap : Option Nat
  nonce : Option Nat
  idleStreams : List Stream
  openStreams : Nat
  streamsProven : Nat
  transportGeneration : Nat
  attempt : Nat

/-- A connection that was never connected. -/
def RemoteConnection.fresh : RemoteConnection where
  transport := none
  isAlive := false
  endpoint := none
  bootstrap := none
  nonce := none
  idleStreams := []
  openStreams := 0
  streamsProven := 0
  transportGeneration := 0
  attempt := 0

/-- What the connection raises itself. -/
inductive ChannelError where
  | notEstablished
  | dropped
  | establishFailed
deriving DecidableEq

namespace RemoteConnection

/-- `_close_stream_locked`. -/
def closeStreamLocked (c : RemoteConnection) : RemoteConnection :=
  { c with openStreams := c.openStreams - 1 }

/-- `_release_locked`. -/
def releaseLocked (c : RemoteConnection) : RemoteConnection :=
  { c with
    idleStreams := []
    openStreams := 0
    streamsProven := 0
    transportGeneration := c.transportGeneration + 1
    transport := none
    isAlive := false
    endpoint := none
    bootstrap := none }

/-- How an attempt to establish ends: with an error, or with a transport and its first stream. -/
inductive Establishing where
  | fails
  | succeeds (hasSock : Bool)

/-- `_establish`. -/
def establish (outcome : Establishing) (c : RemoteConnection) :
    Except ChannelError Unit × RemoteConnection :=
  let attempt := c.attempt + 1
  match outcome with
  | .fails => (.error .establishFailed, { c with attempt := attempt })
  | .succeeds hasSock =>
    (.ok (), { c with
      attempt := attempt
      transport := some attempt
      isAlive := true
      endpoint := some attempt
      bootstrap := some attempt
      nonce := some attempt
      idleStreams := [⟨attempt, attempt, attempt, hasSock⟩]
      openStreams := 1
      streamsProven := 1 })

/-- `connected`. -/
def connected (c : RemoteConnection) : Bool := c.transport.isSome && c.isAlive

/-- `connect`. -/
def connect (devMode : Bool) (outcome : Establishing) (c : RemoteConnection) :
    Except ChannelError Unit × RemoteConnection :=
  if c.connected then (.ok (), c)
  else if c.transport.isSome then
    if devMode then establish outcome c.releaseLocked else (.error .dropped, c)
  else establish outcome c

/-- `reconnect`. -/
def reconnect (outcome : Establishing) (c : RemoteConnection) :
    Except ChannelError Unit × RemoteConnection :=
  establish outcome c.releaseLocked

/-- `close`. -/
def close (c : RemoteConnection) : RemoteConnection :=
  if c.transport.isNone then c else c.releaseLocked

/-- What a stream is to be proven with, and the generation of the channel it was read at. -/
structure Proving where
  endpoint : Nat
  nonce : Nat
  identity : Nat
  generation : Nat

/-- How the first locked section of `_acquire_stream` ends. -/
inductive Acquiring where
  | raised (error : ChannelError)
  | pooled (stream : Stream)
  | unproven (proving : Proving)

/-- The idle streams from the newest one on: those without a socket are closed. -/
def takeIdle : List Stream → RemoteConnection → Option Stream × RemoteConnection
  | [], c => (none, { c with idleStreams := [] })
  | candidate :: idle, c =>
    if candidate.hasSock then (some candidate, { c with idleStreams := idle })
    else takeIdle idle c.closeStreamLocked

/-- `_acquire_stream`, its first locked section. -/
def acquireStream (c : RemoteConnection) : Acquiring × RemoteConnection :=
  if c.transport.isNone then (.raised .notEstablished, c)
  else if !c.isAlive then (.raised .dropped, c)
  else
    match takeIdle c.idleStreams c with
    | (some stream, taken) => (.pooled stream, taken)
    | (none, taken) =>
      match taken.endpoint, taken.bootstrap, taken.nonce with
      | some endpoint, some bootstrap, some nonce =>
        (.unproven ⟨endpoint, nonce, bootstrap, taken.transportGeneration⟩, taken)
      | _, _, _ => (.raised .notEstablished, taken)

/-- `_acquire_stream`, its second locked section. -/
def acceptProven (generation : Nat) (c : RemoteConnection) :
    Except ChannelError Unit × RemoteConnection :=
  if generation ≠ c.transportGeneration then (.error .dropped, c)
  else (.ok (), { c with openStreams := c.openStreams + 1, streamsProven := c.streamsProven + 1 })

/-- `_release_stream`. -/
def releaseStream (stream : Stream) (c : RemoteConnection) : RemoteConnection :=
  if !stream.hasSock || c.transport.isNone then c.closeStreamLocked
  else if maxPooledChannelStreams ≤ c.idleStreams.length then c.closeStreamLocked
  else { c with idleStreams := stream :: c.idleStreams }

/-- `_discard_stream`. -/
def discardStream (c : RemoteConnection) : RemoteConnection := c.closeStreamLocked

end RemoteConnection

/-! ### Threads -/

open RemoteConnection

/-- Where a thread in `request_json` stands. -/
inductive Phase where
  | acquiring (retried : Bool)
  | proving (retried : Bool) (proving : Proving)
  | proven (retried : Bool) (generation : Nat) (stream : Stream)
  | requesting (retried : Bool) (stream : Stream)
  | releasing (stream : Stream)
  | discarding (stream : Stream) (retries : Bool)
  | finished

/-- A thread, and how often it has issued its request. -/
structure Thread where
  phase : Phase
  issued : Nat

/-- What a step shows: a stream is returned by `_acquire_stream`, or handed back. -/
inductive ChannelEvent where
  | acquired (stream : Stream)
  | handedBack (stream : Stream)
  | silent

/-- One step of `request_json`: a section under the lock, or what happens outside it. -/
inductive ThreadStep (c : RemoteConnection) :
    Thread → ChannelEvent → RemoteConnection → Thread → Prop
  | raises {retried n e c'} (h : acquireStream c = (.raised e, c')) :
      ThreadStep c ⟨.acquiring retried, n⟩ .silent c' ⟨.finished, n⟩
  | takes {retried n stream c'} (h : acquireStream c = (.pooled stream, c')) :
      ThreadStep c ⟨.acquiring retried, n⟩ (.acquired stream) c' ⟨.requesting retried stream, n⟩
  | proves {retried n proving c'} (h : acquireStream c = (.unproven proving, c')) :
      ThreadStep c ⟨.acquiring retried, n⟩ .silent c' ⟨.proving retried proving, n⟩
  | refused {retried n proving} :
      ThreadStep c ⟨.proving retried proving, n⟩ .silent c ⟨.finished, n⟩
  | opened {retried n} {proving : Proving} (hasSock : Bool) :
      ThreadStep c ⟨.proving retried proving, n⟩ .silent c ⟨.proven retried proving.generation
          ⟨proving.endpoint, proving.nonce, proving.identity, hasSock⟩, n⟩
  | replaced {retried n generation stream e c'} (h : acceptProven generation c = (.error e, c')) :
      ThreadStep c ⟨.proven retried generation stream, n⟩ .silent c' ⟨.finished, n⟩
  | accepts {retried n generation stream c'} (h : acceptProven generation c = (.ok (), c')) :
      ThreadStep c ⟨.proven retried generation stream, n⟩ (.acquired stream) c'
        ⟨.requesting retried stream, n⟩
  | answered {retried n} {stream : Stream} (hasSock : Bool) :
      ThreadStep c ⟨.requesting retried stream, n⟩ .silent c
        ⟨.releasing { stream with hasSock := hasSock }, n + 1⟩
  | failed {retried n} {stream : Stream} (hasSock isStale : Bool) :
      ThreadStep c ⟨.requesting retried stream, n⟩ .silent c
        ⟨.discarding { stream with hasSock := hasSock } (!retried && isStale), n + 1⟩
  | releases {n stream} :
      ThreadStep c ⟨.releasing stream, n⟩ (.handedBack stream) (releaseStream stream c)
        ⟨.finished, n⟩
  | discards {n stream retries} :
      ThreadStep c ⟨.discarding stream retries, n⟩ (.handedBack stream) (discardStream c)
        ⟨if retries then .acquiring true else .finished, n⟩

/-- The connection and the threads that call `request_json`. -/
structure World where
  connection : RemoteConnection
  threads : List Thread

/-- No thread has begun. -/
def World.fresh : World := ⟨.fresh, []⟩

/-- One step: a thread begins a request or goes on with it, some thread connects, reconnects or
closes, or the transport dies. -/
inductive Step : World → ChannelEvent → World → Prop
  | begins {w} : Step w .silent { w with threads := ⟨.acquiring false, 0⟩ :: w.threads }
  | connects {w} (devMode : Bool) (outcome : Establishing) :
      Step w .silent { w with connection := (connect devMode outcome w.connection).2 }
  | reconnects {w} (outcome : Establishing) :
      Step w .silent { w with connection := (reconnect outcome w.connection).2 }
  | closes {w} : Step w .silent { w with connection := close w.connection }
  | dies {w} : Step w .silent { w with connection := { w.connection with isAlive := false } }
  | acts {c c' before after thread thread' event} (h : ThreadStep c thread event c' thread') :
      Step ⟨c, before ++ thread :: after⟩ event ⟨c', before ++ thread' :: after⟩

end ClioQueue.Remote
