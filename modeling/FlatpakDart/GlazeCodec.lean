/-
`GlazeCodec` (`lib/src/ffi/codec.dart`): the Dart side of the wire format.

The decoders read through a position into a message's bytes; the encoder
appends.  Both are hand-written field by field, in the order of the C++ field
lists.  A thrown `RangeError` or `FormatException` is `none`.
-/
import FlatpakDart.DartTypes
import FlatpakDart.LittleEndian
import FlatpakDart.Text

namespace Dart

/-- A `Uint8List`: a window on a byte buffer, which may be larger. -/
structure Uint8List where
  buffer : List UInt8
  offsetInBytes : ℕ
  length : ℕ
  fits : offsetInBytes + length ≤ buffer.length

namespace Uint8List

/-- A list with a buffer of its own, as a posted message has. -/
def ofList (bytes : List UInt8) : Uint8List := ⟨bytes, 0, bytes.length, by simp⟩

/-- `buffer.asByteData(offsetInBytes)`: everything from the list's start to the
end of the buffer, which may lie past the end of the list. -/
def asByteData (l : Uint8List) : List UInt8 := l.buffer.drop l.offsetInBytes

/-- `sublist(start, end)`. -/
def sublist (l : Uint8List) (start stop : ℕ) : List UInt8 :=
  ((l.buffer.drop l.offsetInBytes).take l.length).take stop |>.drop start

@[simp] theorem asByteData_ofList (bytes : List UInt8) : (ofList bytes).asByteData = bytes := rfl

@[simp] theorem length_ofList (bytes : List UInt8) : (ofList bytes).length = bytes.length := rfl

theorem sublist_ofList (bytes : List UInt8) (start stop : ℕ) :
    (ofList bytes).sublist start stop = (bytes.take stop).drop start := by
  rw [sublist, ofList, List.drop_zero, List.take_length]

end Uint8List

/-! ### Binary reader -/

/-- `_BinaryReader`. -/
structure BinaryReader where
  data : List UInt8
  pos : ℕ

/-- A computation that reads. -/
abbrev Decoder (α : Type) : Type := StateT BinaryReader Option α

namespace BinaryReader

/-- `n` bytes at `_pos`, which then moves past them. -/
def bytes (n : ℕ) : Decoder (List UInt8) := fun r =>
  if r.pos + n ≤ r.data.length then
    some ((r.data.drop r.pos).take n, { r with pos := r.pos + n })
  else none

/-- `getUint64`: a Dart `int` is signed, so the top bit is its sign. -/
def readUint64 : Decoder ℤ := do
  let bs ← bytes 8
  pure (BitVec.ofNat 64 (LittleEndian.value bs)).toInt

def readUint32 : Decoder ℤ := do
  let bs ← bytes 4
  pure (LittleEndian.value bs)

def readInt32 : Decoder ℤ := do
  let bs ← bytes 4
  pure (BitVec.ofNat 32 (LittleEndian.value bs)).toInt

def readBool : Decoder Bool := do
  let bs ← bytes 1
  pure (LittleEndian.value bs != 0)

/-- `Uint8List.view(buffer, offset, len)` at `_pos`; a negative length throws. -/
def view (len : ℤ) : Decoder (List UInt8) :=
  if 0 ≤ len then bytes len.toNat else fun _ => none

/-- `utf8.decode(bytes)`. -/
def decodeText (bs : List UInt8) : Decoder String := fun r =>
  (Text.utf8Decode bs).map fun s => (s, r)

def readString : Decoder String := do
  let len ← readUint64
  let bs ← view len
  decodeText bs

end BinaryReader

/-! ### Decoders -/

namespace GlazeCodec

open BinaryReader

/-- Runs a decoder on `_BinaryReader(data, offset)`. -/
def decode {α : Type} (d : Decoder α) (data : Uint8List) (offset : ℕ) : Option α :=
  (d ⟨data.asByteData, offset⟩).map Prod.fst

def readFlatpakRef : Decoder FlatpakRef := do
  let kind ← readString
  let name ← readString
  let arch ← readString
  let branch ← readString
  let commit ← readString
  let collectionId ← readString
  pure ⟨kind, name, arch, branch, commit, collectionId⟩

def decodeFlatpakRef : Uint8List → ℕ → Option FlatpakRef := decode readFlatpakRef

def readInstalledApp : Decoder FlatpakApplication := do
  -- the nested struct is its fields in order
  let ref ← readFlatpakRef
  let origin ← readString
  let latestCommit ← readString
  let installedPath ← readString
  let installedSize ← readUint64
  let isCurrentArch ← readBool
  let endOfLife ← readBool
  let endOfLifeRebase ← readString
  let appDataName ← readString
  let appDataSummary ← readString
  let appDataVersion ← readString
  let appDataIcon ← readString
  pure ⟨ref, origin, latestCommit, installedPath, installedSize, isCurrentArch, endOfLife,
    endOfLifeRebase, appDataName, appDataSummary, appDataVersion, appDataIcon⟩

def decodeInstalledApp : Uint8List → ℕ → Option FlatpakApplication := decode readInstalledApp

def readInstance : Decoder FlatpakInstance := do
  let appId ← readString
  let instanceId ← readString
  let arch ← readString
  let branch ← readString
  let commit ← readString
  let runtime ← readString
  let pid ← readInt32
  let childPid ← readInt32
  let isRunning ← readBool
  pure ⟨appId, instanceId, arch, branch, commit, runtime, pid, childPid, isRunning⟩

def decodeInstance : Uint8List → ℕ → Option FlatpakInstance := decode readInstance

def readInstallationInfo : Decoder FlatpakInstallationInfo := do
  let id ← readString
  let displayName ← readString
  let path ← readString
  let isUser ← readBool
  let priority ← readInt32
  pure ⟨id, displayName, path, isUser, priority⟩

def decodeInstallationInfo : Uint8List → ℕ → Option FlatpakInstallationInfo :=
  decode readInstallationInfo

def readMetadataEntry : Decoder FlatpakPermission := do
  let section_ ← readString
  let key ← readString
  let value ← readString
  pure ⟨section_, key, value⟩

def decodeMetadataEntry : Uint8List → ℕ → Option FlatpakPermission := decode readMetadataEntry

/-- `_decodeRemoteType`. -/
def decodeRemoteType (v : ℤ) : RemoteType :=
  if v = 1 then .system else if v = 2 then .static_ else .user

def readFlatpakRemote : Decoder FlatpakRemote := do
  let name ← readString
  let url ← readString
  let title ← readString
  let comment ← readString
  let description ← readString
  let homepage ← readString
  let defaultBranch ← readString
  let subset ← readString
  let collectionId ← readString
  let filter ← readString
  let remoteType ← readInt32
  let disabled ← readBool
  let gpgVerify ← readBool
  let noDeps ← readBool
  let priority ← readInt32
  pure ⟨name, url, title, comment, description, homepage, defaultBranch,
    RemoteSubset.fromApiValue subset, collectionId, filter, decodeRemoteType remoteType,
    disabled, gpgVerify, noDeps, priority⟩

def decodeFlatpakRemote : Uint8List → ℕ → Option FlatpakRemote := decode readFlatpakRemote

def readTransactionProgress : Decoder TransactionProgressData := do
  let op ← readString
  let ref ← readString
  let progressPercent ← readUint32
  let bytesTransferred ← readUint64
  let bytesTotal ← readUint64
  let status ← readString
  pure ⟨op, ref, progressPercent, bytesTransferred, bytesTotal, status⟩

def decodeTransactionProgress : Uint8List → ℕ → Option TransactionProgressData :=
  decode readTransactionProgress

/-- An error payload: `[uint32 length][UTF-8 bytes]`. -/
def decodeError (data : Uint8List) (offset : ℕ) : Option String :=
  if data.length < offset + 4 then some "unknown error"
  else
    let len := LittleEndian.value ((data.asByteData.drop offset).take 4)
    let start := offset + 4
    if data.length < start + len then some "truncated error"
    else Text.utf8Decode (data.sublist start (start + len))

def readEntry : Decoder MetadataEntry := do
  let section_ ← readString
  let key ← readString
  let value ← readString
  pure ⟨section_, key, value⟩

/-- `for (var i = 0; i < count; i++) entries.add(...)`. -/
def readEntries : ℕ → Decoder (List MetadataEntry)
  | 0 => pure []
  | n + 1 => do
    let entry ← readEntry
    let entries ← readEntries n
    pure (entry :: entries)

def readRemoteMetadata : Decoder (List MetadataEntry) := do
  let count ← readUint64
  -- no entry for a negative count
  readEntries count.toNat

def decodeRemoteMetadata : Uint8List → ℕ → Option (List MetadataEntry) :=
  decode readRemoteMetadata

end GlazeCodec

/-! ### Binary writer -/

namespace BinaryWriter

def writeByteVector (bs : List UInt8) : List UInt8 := LittleEndian.bytes 8 bs.length ++ bs

def writeString (s : String) : List UInt8 := writeByteVector (Text.utf8Encode s)

/-- `setInt32` stores the low 32 bits. -/
def writeInt32 (v : ℤ) : List UInt8 := LittleEndian.bytes 4 (BitVec.ofInt 32 v).toNat

/-- `addByte(v & 0xFF)`. -/
def writeInt8 (v : ℤ) : List UInt8 := LittleEndian.bytes 1 (BitVec.ofInt 8 v).toNat

end BinaryWriter

namespace GlazeCodec

open BinaryWriter

/-- A nullable flag on the wire: -1 for null. -/
def flagValue : Option Bool → ℤ
  | none => -1
  | some true => 1
  | some false => 0

def encodeRemoteConfig (config : FlatpakRemoteConfig) : List UInt8 :=
  writeString (config.url.getD "") ++
  (writeString (config.title.getD "") ++
  (writeString (config.comment.getD "") ++
  (writeString (config.homepage.getD "") ++
  (writeString (config.defaultBranch.getD "") ++
  (writeByteVector (config.gpgKeyData.getD []) ++
  (writeString ((config.subset.map RemoteSubset.apiValue).getD "") ++
  (writeString (config.collectionId.getD "") ++
  (writeString (config.filter.getD "") ++
  (writeInt32 (config.priority.getD (-1)) ++
  (writeInt8 (flagValue config.gpgVerify) ++
  (writeInt8 (flagValue config.disabled) ++
  writeInt8 (flagValue config.noDeps))))))))))))

end GlazeCodec

end Dart
