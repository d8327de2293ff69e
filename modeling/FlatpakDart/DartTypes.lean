/-
The Dart objects that cross the wire (`lib/src/application.dart`,
`instance.dart`, `installation_info.dart`, `permissions.dart`, `remote.dart`,
and the two classes `lib/src/ffi/codec.dart` declares itself).

A Dart `int` is an integer here; the codec says which widths it is read and
written with.
-/
import Mathlib.Data.Int.Notation

namespace Dart

structure FlatpakRef where
  kind : String
  name : String
  arch : String
  branch : String
  commit : String
  collectionId : String
  deriving DecidableEq

structure FlatpakApplication where
  ref : FlatpakRef
  origin : String
  latestCommit : String
  installedPath : String
  installedSize : ℤ
  isCurrentArch : Bool
  endOfLife : Bool
  endOfLifeRebase : String
  appDataName : String
  appDataSummary : String
  appDataVersion : String
  appDataIcon : String
  deriving DecidableEq

structure FlatpakInstance where
  appId : String
  instanceId : String
  arch : String
  branch : String
  commit : String
  runtime : String
  pid : ℤ
  childPid : ℤ
  isRunning : Bool
  deriving DecidableEq

structure FlatpakInstallationInfo where
  id : String
  displayName : String
  path : String
  isUser : Bool
  priority : ℤ
  deriving DecidableEq

structure FlatpakPermission where
  section_ : String
  key : String
  value : String
  deriving DecidableEq

/-- Type of a configured remote. -/
inductive RemoteType
  | user
  | system
  | static_
  deriving DecidableEq

/-- Subset filter of a Flathub-compatible remote. -/
inductive RemoteSubset
  | none
  | verified
  | floss
  | verifiedFloss
  deriving DecidableEq

/-- The string passed to libflatpak. -/
def RemoteSubset.apiValue : RemoteSubset → String
  | .none => ""
  | .verified => "verified"
  | .floss => "floss"
  | .verifiedFloss => "verified_floss"

def RemoteSubset.fromApiValue (v : String) : RemoteSubset :=
  if v = "verified" then .verified
  else if v = "floss" then .floss
  else if v = "verified_floss" then .verifiedFloss
  else .none

theorem RemoteSubset.fromApiValue_apiValue (s : RemoteSubset) :
    RemoteSubset.fromApiValue s.apiValue = s := by
  cases s <;> decide

structure FlatpakRemote where
  name : String
  url : String
  title : String
  comment : String
  description : String
  homepage : String
  defaultBranch : String
  subset : RemoteSubset
  collectionId : String
  filter : String
  remoteType : RemoteType
  disabled : Bool
  gpgVerify : Bool
  noDeps : Bool
  priority : ℤ
  deriving DecidableEq

/-- Parameters for adding or modifying a remote; a null field is left alone.
`flatpakrepoPath` is set by `fromFlatpakrepoFile` only. -/
structure FlatpakRemoteConfig where
  url : Option String := none
  title : Option String := none
  comment : Option String := none
  homepage : Option String := none
  defaultBranch : Option String := none
  gpgKeyPath : Option String := none
  gpgKeyData : Option (List UInt8) := none
  subset : Option RemoteSubset := none
  collectionId : Option String := none
  filter : Option String := none
  priority : Option ℤ := none
  gpgVerify : Option Bool := none
  disabled : Option Bool := none
  noDeps : Option Bool := none
  flatpakrepoPath : Option String := none

/-- `FlatpakRemoteConfig.fromFlatpakrepoFile`. -/
def FlatpakRemoteConfig.fromFlatpakrepoFile (path : String) : FlatpakRemoteConfig :=
  { flatpakrepoPath := some path }

/-- Decoded transaction progress data. -/
structure TransactionProgressData where
  op : String
  ref : String
  progressPercent : ℤ
  bytesTransferred : ℤ
  bytesTotal : ℤ
  status : String
  deriving DecidableEq

/-- One entry of a remote ref's metadata keyfile. -/
structure MetadataEntry where
  section_ : String
  key : String
  value : String
  deriving DecidableEq

end Dart
