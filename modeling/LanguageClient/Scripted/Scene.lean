import LanguageClient.Extension
import LanguageClient.Scripted.Command
import LanguageClient.Scripted.Server

/-!
# `LanguageClient.Scripted.Scene`: a host in which nothing can be reached

There is no network in a scene: dialing fails, and a spawned command is no
language server. A session may stand alone, or belong to an activation in a host.

- `Scene`: a host, and the activation in it.
- `Demand`, `Reaction`: what is asked for, and what comes of it.
- `Scene.act`: what a demand does; `Scene.fresh` are the calls that it made on
  the status item.
-/

set_option autoImplicit false

namespace LanguageClient.Scripted

/-- A host, and the activation in it. A session that stands alone is one without
subscriptions. -/
structure Scene where
  config : Config
  host : Host := {}
  active : Option Extension := none
  /-- The calls on the status item that the last demand made. -/
  fresh : List Status.ItemCall := []

/-- What is asked for in a scene. -/
inductive Demand where
  | activate
  | deactivate
  | drop
  | start
  /-- Wait until the attempt to connect has come out. -/
  | attempt
  | routes (d : Document)
  | openDocument (d : Document)
  | closeDocument (uri : String)
  | ready
  | stop

/-- What comes of a demand. -/
inductive Reaction where
  | nothing
  | done
  | activated (subscriptions : Nat)
  | settled
  | pending
  /-- Whether a document belongs to the session, or did. -/
  | verdict (holds : Bool)
  | routed (holds : Bool)
  | failed (e : SessionError)
  | refused (e : Extension.Failure)

namespace Scene

/-- The session of the scene, if there is one. -/
def session? (s : Scene) : Option Session := s.active.map Extension.session

/-- Let a session go on. -/
def rest (s : Session) : Session := s.settle none Line.patience

/-- Bytes of the child reach the session. -/
def arrive (s : Session) (bytes : List UInt8) : Session :=
  (Stream.portions bytes).foldl (fun s portion => s.ambient (.deliver portion)) s

/-- The texts that the session has written to the child. -/
def written (s : Session) : List (List Char) :=
  (s.connection.map fun c => c.client.rpc.stream.written).getD []

/-- The child copies what the session writes to it, until it writes nothing
more. -/
def echo : Nat → Session → Nat → Session
  | 0, s, _ => s
  | fuel + 1, s, seen =>
    match (written s).drop seen with
    | [] => s
    | texts => echo fuel (rest (arrive s (texts.flatMap Text.encode))) (seen + texts.length)

/-- The session talks to a child that carries out acts; a child that only waits
lets its time run out. -/
def talk (s : Session) : List Act → Session
  | [] => rest (s.ambient .finish)
  | .write .output bytes :: acts => talk (rest (arrive s bytes)) acts
  | .write _ _ :: acts => talk s acts
  | .copyInput .output :: _ => rest (echo Line.patience s 0).expire
  | .copyInput _ :: _ => rest s.expire
  | .pause time :: acts => if time ≤ Act.shortPause then talk s acts else rest s.expire

/-- The attempt to connect takes place. -/
def attempt (s : Session) : Session :=
  match s.config.transport with
  | .dial _ => s.dialed (some .networkUnreachable)
  | .spawn command arguments directory =>
    let spawned := Command.spawn command arguments directory
    let s := s.spawned (spawned.map fun _ => 1)
    match spawned with
    | .ok acts => talk (rest s) acts
    | .error _ => s

/-- What a demand on a session does. -/
def ask (s : Session) : Demand → Reaction × Session
  | .start =>
    match s.start with
    | .ok s => (.done, s)
    | .error e => (.failed e, s)
  | .attempt => (.settled, attempt s)
  | .routes d => (.routed (s.routes d), s)
  | .openDocument d =>
    match s.openDocument d with
    | .ok (routed, s) => (.verdict routed, s)
    | .error e => (.failed e, s)
  | .closeDocument uri =>
    match s.closeDocument uri with
    | (.ok tracked, s) => (.verdict tracked, s)
    | (.error e, s) => (.failed e, s)
  | .ready =>
    match s.ready? with
    | some (.ok _) => (.done, s)
    | some (.error e) => (.failed e, s)
    | none => (.pending, s)
  | .stop => (.nothing, s.stop)
  | _ => (.nothing, s)

/-- The calls made on an item after those that were made before. -/
def since (before after : Session) : List Status.ItemCall :=
  after.indicator.calls.drop before.indicator.calls.length

/-- What a demand does. -/
def act (s : Scene) (d : Demand) : Reaction × Scene :=
  match d, s.active with
  | .activate, _ =>
    match Extension.activate s.host s.config 0 with
    | (.active x, host) =>
      (.activated x.subscriptions.count,
        { s with host, active := some x, fresh := x.session.indicator.calls })
    | (.failed e session, host) =>
      (.refused e, { s with host, active := none, fresh := session.indicator.calls })
  | .deactivate, some x =>
    let (y, host) := x.deactivate.finish s.host
    (.nothing, { s with host, active := none, fresh := since x.session y.session })
  | .drop, some x =>
    let (y, host) := x.drop s.host
    (.nothing, { s with host, active := none, fresh := since x.session y.session })
  | d, some x =>
    let (reaction, session) := ask x.session d
    (reaction, { s with active := some { x with session }, fresh := since x.session session })
  | _, none => (.nothing, { s with fresh := [] })

end Scene

end LanguageClient.Scripted
