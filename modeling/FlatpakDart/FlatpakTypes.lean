/-
The wire structs of `native/include/flatpak_types.h`.

Each struct is registered with its `glz::meta<T>::fields`, in the order the
header lists them.  Nothing on the wire names a field, so this order is the
whole schema.
-/
import FlatpakDart.GlazeMeta
import FlatpakDart.Text

open Glz

namespace Glz

/-! ### Shapes of the registered fields -/

abbrev Field.string : Field := .elem .string
abbrev Field.u32 : Field := .elem (.scalar .u32)
abbrev Field.u64 : Field := .elem (.scalar .u64)
abbrev Field.i8 : Field := .elem (.scalar .i8)
abbrev Field.i32 : Field := .elem (.scalar .i32)

/-- The empty string or vector. -/
def CppVector.empty {α : Type} : CppVector α := ⟨[], Nat.two_pow_pos 63⟩

/-! ### Strings of C and of C++ -/

/-- A string literal of the source. -/
def CppString.lit (s : String) (h : (Text.utf8Encode s).length < 2 ^ 63) : CppString :=
  ⟨Text.utf8Encode s, h⟩

/-- `std::string(const char*)`. -/
def CppString.ofCString (s : CString) : CppString := ⟨s.bytes, s.bounded⟩

/-- `c_str()`, as C reads it. -/
def CppString.cStr (s : CppString) : CString := .ofBytes s.val

/-- `safe_str`: a null pointer reads as the empty string. -/
def safeStr : Option CString → CppString
  | none => .empty
  | some s => .ofCString s

end Glz

namespace Native

structure FpRef where
  kind : CppString
  name : CppString
  arch : CppString
  branch : CppString
  commit : CppString
  collectionId : CppString

instance : Reflectable FpRef where
  fields :=
    .cons "kind" .string <| .cons "name" .string <| .cons "arch" .string <|
    .cons "branch" .string <| .cons "commit" .string <| .cons "collectionId" .string .nil
  get v := (v.kind, v.name, v.arch, v.branch, v.commit, v.collectionId, ())
  set := fun (kind, name, arch, branch, commit, collectionId, _) =>
    ⟨kind, name, arch, branch, commit, collectionId⟩
  set_get _ := rfl

structure InstalledApp where
  ref : FpRef
  origin : CppString
  latestCommit : CppString
  installedPath : CppString
  installedSize : UInt64
  isCurrentArch : Bool
  endOfLife : Bool
  endOfLifeRebase : CppString
  appDataName : CppString
  appDataSummary : CppString
  appDataVersion : CppString
  appDataIcon : CppString

instance : Reflectable InstalledApp where
  fields :=
    .cons "ref" (.elem (.struct (Reflectable.fields FpRef))) <| .cons "origin" .string <|
    .cons "latestCommit" .string <| .cons "installedPath" .string <|
    .cons "installedSize" .u64 <| .cons "isCurrentArch" .bool <| .cons "endOfLife" .bool <|
    .cons "endOfLifeRebase" .string <| .cons "appDataName" .string <|
    .cons "appDataSummary" .string <| .cons "appDataVersion" .string <|
    .cons "appDataIcon" .string .nil
  get v :=
    (Reflectable.get v.ref, v.origin, v.latestCommit, v.installedPath, v.installedSize.toBitVec,
      v.isCurrentArch, v.endOfLife, v.endOfLifeRebase, v.appDataName, v.appDataSummary,
      v.appDataVersion, v.appDataIcon, ())
  set := fun (ref, origin, latestCommit, installedPath, installedSize, isCurrentArch, endOfLife,
      endOfLifeRebase, appDataName, appDataSummary, appDataVersion, appDataIcon, _) =>
    ⟨Reflectable.set ref, origin, latestCommit, installedPath, ⟨installedSize⟩, isCurrentArch,
      endOfLife, endOfLifeRebase, appDataName, appDataSummary, appDataVersion, appDataIcon⟩
  set_get _ := rfl

structure FlatpakRemoteInfo where
  name : CppString
  url : CppString
  title : CppString
  comment : CppString
  description : CppString
  homepage : CppString
  defaultBranch : CppString
  subset : CppString
  collectionId : CppString
  filter : CppString
  /-- 0 = user, 1 = system, 2 = static -/
  remoteType : Int32
  disabled : Bool
  gpgVerify : Bool
  noDeps : Bool
  priority : Int32

instance : Reflectable FlatpakRemoteInfo where
  fields :=
    .cons "name" .string <| .cons "url" .string <| .cons "title" .string <|
    .cons "comment" .string <| .cons "description" .string <| .cons "homepage" .string <|
    .cons "defaultBranch" .string <| .cons "subset" .string <| .cons "collectionId" .string <|
    .cons "filter" .string <| .cons "remoteType" .i32 <| .cons "disabled" .bool <|
    .cons "gpgVerify" .bool <| .cons "noDeps" .bool <| .cons "priority" .i32 .nil
  get v :=
    (v.name, v.url, v.title, v.comment, v.description, v.homepage, v.defaultBranch, v.subset,
      v.collectionId, v.filter, v.remoteType.toBitVec, v.disabled, v.gpgVerify, v.noDeps,
      v.priority.toBitVec, ())
  set := fun (name, url, title, comment, description, homepage, defaultBranch, subset,
      collectionId, filter, remoteType, disabled, gpgVerify, noDeps, priority, _) =>
    ⟨name, url, title, comment, description, homepage, defaultBranch, subset, collectionId,
      filter, .ofBitVec remoteType, disabled, gpgVerify, noDeps, .ofBitVec priority⟩
  set_get _ := rfl

/-- What an add or a modify applies.  The defaults are the sentinels for
"leave unchanged". -/
structure RemoteConfig where
  url : CppString := .empty
  title : CppString := .empty
  comment : CppString := .empty
  homepage : CppString := .empty
  defaultBranch : CppString := .empty
  gpgKeyData : CppVector (BitVec 8) := .empty
  subset : CppString := .empty
  collectionId : CppString := .empty
  filter : CppString := .empty
  priority : Int32 := -1
  gpgVerify : Int8 := -1
  disabled : Int8 := -1
  noDeps : Int8 := -1

instance : Reflectable RemoteConfig where
  fields :=
    .cons "url" .string <| .cons "title" .string <| .cons "comment" .string <|
    .cons "homepage" .string <| .cons "defaultBranch" .string <|
    .cons "gpgKeyData" (.vector (.scalar .u8)) <| .cons "subset" .string <|
    .cons "collectionId" .string <| .cons "filter" .string <| .cons "priority" .i32 <|
    .cons "gpgVerify" .i8 <| .cons "disabled" .i8 <| .cons "noDeps" .i8 .nil
  get v :=
    (v.url, v.title, v.comment, v.homepage, v.defaultBranch, v.gpgKeyData, v.subset,
      v.collectionId, v.filter, v.priority.toBitVec, v.gpgVerify.toBitVec, v.disabled.toBitVec,
      v.noDeps.toBitVec, ())
  set := fun (url, title, comment, homepage, defaultBranch, gpgKeyData, subset, collectionId,
      filter, priority, gpgVerify, disabled, noDeps, _) =>
    ⟨url, title, comment, homepage, defaultBranch, gpgKeyData, subset, collectionId, filter,
      .ofBitVec priority, .ofBitVec gpgVerify, .ofBitVec disabled, .ofBitVec noDeps⟩
  set_get _ := rfl

structure TransactionProgress where
  /-- "install" | "update" | "uninstall" -/
  op : CppString
  ref : CppString
  /-- 0-100 -/
  progress : UInt32
  bytesTransferred : UInt64
  bytesTotal : UInt64
  status : CppString

instance : Reflectable TransactionProgress where
  fields :=
    .cons "op" .string <| .cons "ref" .string <| .cons "progress" .u32 <|
    .cons "bytesTransferred" .u64 <| .cons "bytesTotal" .u64 <| .cons "status" .string .nil
  get v :=
    (v.op, v.ref, v.progress.toBitVec, v.bytesTransferred.toBitVec, v.bytesTotal.toBitVec,
      v.status, ())
  set := fun (op, ref, progress, bytesTransferred, bytesTotal, status, _) =>
    ⟨op, ref, ⟨progress⟩, ⟨bytesTransferred⟩, ⟨bytesTotal⟩, status⟩
  set_get _ := rfl

structure FpInstance where
  appId : CppString
  instanceId : CppString
  arch : CppString
  branch : CppString
  commit : CppString
  runtime : CppString
  /-- outermost (bubblewrap) pid -/
  pid : Int32
  /-- application process pid -/
  childPid : Int32
  isRunning : Bool

instance : Reflectable FpInstance where
  fields :=
    .cons "appId" .string <| .cons "instanceId" .string <| .cons "arch" .string <|
    .cons "branch" .string <| .cons "commit" .string <| .cons "runtime" .string <|
    .cons "pid" .i32 <| .cons "childPid" .i32 <| .cons "isRunning" .bool .nil
  get v :=
    (v.appId, v.instanceId, v.arch, v.branch, v.commit, v.runtime, v.pid.toBitVec,
      v.childPid.toBitVec, v.isRunning, ())
  set := fun (appId, instanceId, arch, branch, commit, runtime, pid, childPid, isRunning, _) =>
    ⟨appId, instanceId, arch, branch, commit, runtime, .ofBitVec pid, .ofBitVec childPid,
      isRunning⟩
  set_get _ := rfl

structure FpInstallationInfo where
  id : CppString
  displayName : CppString
  path : CppString
  isUser : Bool
  priority : Int32

instance : Reflectable FpInstallationInfo where
  fields :=
    .cons "id" .string <| .cons "displayName" .string <| .cons "path" .string <|
    .cons "isUser" .bool <| .cons "priority" .i32 .nil
  get v := (v.id, v.displayName, v.path, v.isUser, v.priority.toBitVec, ())
  set := fun (id, displayName, path, isUser, priority, _) =>
    ⟨id, displayName, path, isUser, .ofBitVec priority⟩
  set_get _ := rfl

/-- One `key=value` entry of a metadata keyfile section. -/
structure FpMetadataEntry where
  section_ : CppString
  key : CppString
  value : CppString

instance : Reflectable FpMetadataEntry where
  fields := .cons "section" .string <| .cons "key" .string <| .cons "value" .string .nil
  get v := (v.section_, v.key, v.value, ())
  set := fun (section_, key, value, _) => ⟨section_, key, value⟩
  set_get _ := rfl

end Native
