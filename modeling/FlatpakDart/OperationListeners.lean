/-
What Dart does with the answers (`lib/src/installation.dart`,
`lib/src/remote_manager.dart`).

An operation opens a port and listens to it; the callback switches on the first byte of
a message.  `Operation` is what one call keeps between messages: its local variables, and
every completion of its future, in order.  Where a decoder throws out of the callback,
nothing more happens.

The operations that differ in the decoder and the exception only are one listener with
parameters: `collect` for those that gather a list, `first` for those that complete
with the first element.
-/
import FlatpakDart.GlazeCodec
import FlatpakDart.PortListener

open PortListener

namespace Dart

/-- `FlatpakException`: the subclasses the listeners make. -/
inductive FlatpakException
  | notFound (message : String)
  | remote (message : String)
  | launch (message : String)
  | stop (message : String)

def FlatpakException.message : FlatpakException → String
  | .notFound message | .remote message | .launch message | .stop message => message

/-- The local variables of a call, and how its future was completed. -/
structure Operation (ρ α : Type) where
  locals : ρ
  completed : List (Except FlatpakException α)

/-- The listener of one operation. -/
abbrev Callback (ρ α : Type) : Type := Listener (List UInt8) (Operation ρ α)

namespace Operation

variable {ρ α β : Type}

/-- A call that has just started to listen. -/
def start (locals : ρ) : Operation ρ α := ⟨locals, []⟩

/-- `if (!completer.isCompleted) completer.complete…`. -/
def complete (o : Operation ρ α) (r : Except FlatpakException α) : Operation ρ α :=
  if o.completed = [] then { o with completed := [r] } else o

/-- The branch of an error frame. -/
def fail (o : Operation ρ α) (exception : String → FlatpakException) (msg : List UInt8) :
    Operation ρ α × Bool :=
  match GlazeCodec.decodeError (.ofList msg) 1 with
  | none => (o, false)
  | some err => (o.complete (.error (exception err)), true)

/-- The listener of an operation that gathers `results`.  The `guarded` ones look at
`msg.length` first. -/
def collect (guarded : Bool) (decode : Uint8List → ℕ → Option β)
    (exception : String → FlatpakException) : Callback (List β) (List β) where
  start := start []
  handle o msg :=
    match msg.head? with
    | some 0x01 =>
      if guarded && msg.length ≤ 1 then (o, false)
      else
        match decode (.ofList msg) 1 with
        | none => (o, false)
        | some b => ({ o with locals := o.locals ++ [b] }, false)
    | some 0x02 => o.fail exception msg
    | some 0xFF => (o.complete (.ok o.locals), true)
    | _ => (o, false)

/-- The listener of an operation that completes at its first element. -/
def first (decode : Uint8List → ℕ → Option α) (exception : String → FlatpakException) :
    Callback Unit α where
  start := start ()
  handle o msg :=
    match msg.head? with
    | some 0x01 =>
      if 1 < msg.length ∧ o.completed = [] then
        match decode (.ofList msg) 1 with
        | none => (o, false)
        | some a => (o.complete (.ok a), false)
      else (o, false)
    | some 0x02 => o.fail exception msg
    -- the sentinel completes nothing
    | some 0xFF => (o, true)
    | _ => (o, false)

/-- The listener of an operation that has nothing to report but the end, or an error. -/
def await (errors : UInt8 → Option (String → FlatpakException)) : Callback Unit Unit where
  start := start ()
  handle o msg :=
    match msg.head? with
    | none => (o, false)
    | some disc =>
      match errors disc with
      | some exception => o.fail exception msg
      | none => if disc = 0xFF then (o.complete (.ok ()), true) else (o, false)

end Operation

open Operation GlazeCodec

namespace FlatpakInstallation

def listApplications : Callback (List FlatpakApplication) (List FlatpakApplication) :=
  collect true decodeInstalledApp .notFound

def listRemotes : Callback (List FlatpakRemote) (List FlatpakRemote) :=
  collect true decodeFlatpakRemote .remote

def getRemoteInfo : Callback Unit FlatpakRemote :=
  first decodeFlatpakRemote .notFound

/-- What a stream emits; nothing follows `done`. -/
inductive Event (α : Type)
  | data (a : α)
  | error (ex : FlatpakException)
  | done

/-- The listener behind a stream, with what its controller was given. -/
def listRemoteApps : Listener (List UInt8) (List (Event FlatpakRef)) where
  start := []
  handle events msg :=
    match msg.head? with
    | some 0x01 =>
      if 1 < msg.length then
        match decodeFlatpakRef (.ofList msg) 1 with
        | none => (events, false)
        | some ref => (events ++ [.data ref], false)
      else (events, false)
    | some 0x02 =>
      match decodeError (.ofList msg) 1 with
      | none => (events, false)
      | some err => (events ++ [.error (.notFound err), .done], true)
    | some 0xFF => (events ++ [.done], true)
    | _ => (events, false)

def getAppInfo : Callback Unit FlatpakApplication :=
  first decodeInstalledApp .notFound

def getPermissions : Callback (List FlatpakPermission) (List FlatpakPermission) :=
  collect false decodeMetadataEntry .notFound

def checkForUpdates : Callback (List FlatpakRef) (List FlatpakRef) :=
  collect true decodeFlatpakRef .remote

def fetchRemoteMetadata : Callback Unit (List MetadataEntry) :=
  first decodeRemoteMetadata .notFound

def launch : Callback (Option FlatpakInstance) FlatpakInstance where
  start := start none
  handle o msg :=
    match msg.head? with
    | some 0x01 =>
      if 1 < msg.length then
        match decodeInstance (.ofList msg) 1 with
        | none => (o, false)
        | some inst => ({ o with locals := some inst }, false)
      else (o, false)
    | some 0x02 => o.fail .notFound msg
    | some 0x03 => o.fail .launch msg
    | some 0xFF =>
      match o.locals with
      | some inst => (o.complete (.ok inst), true)
      | none => (o.complete (.error (.launch "launch produced no instance")), true)
    | _ => (o, false)

def stop : Callback Unit Unit :=
  await fun
    | 0x02 => some .notFound
    | 0x03 => some .stop
    | _ => none

def listRunning : Callback (List FlatpakInstance) (List FlatpakInstance) :=
  collect true decodeInstance .notFound

def refreshAppstream : Callback Unit Unit :=
  await fun
    | 0x02 => some .remote
    | _ => none

/-- `_readSingleString`. -/
def readSingleString : Callback String String where
  start := start ""
  handle o msg :=
    match msg.head? with
    | some 0x01 =>
      match decodeError (.ofList msg) 1 with
      | none => (o, false)
      | some result => ({ o with locals := result }, false)
    | some 0x02 => o.fail .remote msg
    | some 0xFF => (o.complete (.ok o.locals), true)
    | _ => (o, false)

def getVersion : Callback String String := readSingleString

def getDefaultArch : Callback String String := readSingleString

def getSupportedArches : Callback (List String) (List String) :=
  collect false decodeError .remote

def listSystemInstallations :
    Callback (List FlatpakInstallationInfo) (List FlatpakInstallationInfo) :=
  collect true decodeInstallationInfo .remote

def getRuntimeRef : Callback String String := readSingleString

/-- The string that `isRefInstalled` then compares with `1`. -/
def isRefInstalled : Callback String String := readSingleString

def listMissingExtensions : Callback (List String) (List String) :=
  collect false decodeError .remote

end FlatpakInstallation

/-- `FlatpakRemoteManager._listenForResult`: here 0x01 is the end. -/
def Operation.listenForResult : Callback Unit Unit where
  start := start ()
  handle o msg :=
    match msg.head? with
    | some 0x01 => (o.complete (.ok ()), true)
    | some 0x02 => o.fail .remote msg
    | _ => (o, false)

end Dart
