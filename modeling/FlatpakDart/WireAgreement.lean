/-
The two ends of the wire agree.

The C++ writer follows `glz::meta<T>::fields`, the Dart decoders are written by
hand.  `Decodes d w a` says that the decoder `d` takes the bytes `w` for `a`,
wherever they lie in a message; it composes as the decoders' `do` blocks do, so
each struct is one pass over its two field lists:

* `readInstalledApp_decodes`, `readFlatpakRemote_decodes`, … — each decoder reads
  what the writer wrote;
* `decodeError_postFramedError` — what arrives of an error message;
* `wire_agreement` — posted at one end and decoded at the other, every struct
  and every message shorter than 4 GiB is the value it was.

Strings are `Portable` when they are well-formed UTF-8 without a leading byte
order mark, 64-bit integers when they fit a Dart `int`.
-/
import FlatpakDart.FlatpakPost
import FlatpakDart.FlatpakTypes
import FlatpakDart.GlazeCodec

open Glz

/-! ### Values both languages have -/

namespace Glz

/-- Well-formed UTF-8, with no byte order mark in front. -/
def CppString.Portable (s : CppString) : Prop :=
  (∃ t, s.val = Text.utf8Encode t) ∧ ¬ Text.byteOrderMark <+: s.val

/-- The Dart string with these bytes. -/
def CppString.text (s : CppString) : String := (String.fromUTF8? s.val.toByteArray).getD ""

theorem CppString.encode_text {s : CppString} (h : s.Portable) :
    Text.utf8Encode s.text = s.val := by
  obtain ⟨⟨t, ht⟩, _⟩ := h
  rw [CppString.text, ht, Text.fromUTF8_encode, Option.getD_some]

theorem CppString.decode_text {s : CppString} (h : s.Portable) :
    Text.utf8Decode s.val = some s.text := by
  rw [← CppString.encode_text h]
  refine Text.utf8Decode_encode ?_
  rw [CppString.encode_text h]
  exact h.2

mutual

/-- Every string in the value is portable, every `uint64_t` below 2^63. -/
def Elem.Portable : (e : Elem) → e.den → Prop
  | .string, s => CppString.Portable s
  | .scalar s, v => s = .u64 → v.toNat < 2 ^ 63
  | .struct fs, v => fs.Portable v

def Field.Portable : (f : Field) → f.den → Prop
  | .elem e, v => e.Portable v
  | .bool, _ => True
  | .vector e, v => ∀ a ∈ v.val, e.Portable a
  | .optional e, v => Option.elim (show Option e.den from v) True e.Portable

def Fields.Portable : (fs : Fields) → fs.den → Prop
  | .nil, _ => True
  | .cons _ f fs, v => f.Portable v.1 ∧ fs.Portable v.2

end

/-- A struct value Dart can hold. -/
def Portable {T : Type} [Reflectable T] (v : T) : Prop :=
  (Reflectable.fields T).Portable (Reflectable.get v)

end Glz

namespace Dart

/-! ### Decoding a word in place -/

/-- The decoder takes `w` for `a`, wherever `w` lies in a message. -/
def Decodes {α : Type} (d : Decoder α) (w : List UInt8) (a : α) : Prop :=
  ∀ front rest, d ⟨front ++ (w ++ rest), front.length⟩
    = some (a, ⟨front ++ (w ++ rest), front.length + w.length⟩)

namespace Decodes

variable {α β : Type} {d : Decoder α} {f : α → Decoder β} {w w' : List UInt8} {a : α} {b : β}

theorem pure (a : α) : Decodes (pure a) [] a := fun _ _ => rfl

theorem bind (hd : Decodes d w a) (hf : Decodes (f a) w' b) : Decodes (d >>= f) (w ++ w') b := by
  intro front rest
  have hfirst := hd front (w' ++ rest)
  have hthen := hf (front ++ w) rest
  rw [List.append_assoc, List.length_append] at hthen
  show (d _).bind (fun r => f r.1 r.2) = _
  rw [List.append_assoc, hfirst, Option.bind_some, hthen, List.length_append, Nat.add_assoc]

theorem bind_nil (hd : Decodes d w a) (hf : Decodes (f a) [] b) : Decodes (d >>= f) w b := by
  have h := hd.bind hf
  rwa [List.append_nil] at h

/-- A step that only renames the value takes no bytes. -/
theorem bind_pure (hd : Decodes d w a) (g : α → β) :
    Decodes (d >>= fun x => Pure.pure (g x)) w (g a) :=
  hd.bind_nil (Decodes.pure (g a))

/-- What decodes a payload decodes it behind a discriminator, at offset 1. -/
theorem frame (hd : Decodes d w a) (disc : UInt8) :
    GlazeCodec.decode d (.ofList (FlatpakNc.postFramed disc w)) 1 = some a := by
  have h := hd [disc] []
  rw [List.append_nil] at h
  rw [GlazeCodec.decode, Uint8List.asByteData_ofList, FlatpakNc.postFramed]
  exact congrArg (Option.map Prod.fst) h

end Decodes

/-! ### Primitives -/

namespace BinaryReader

theorem bytes_decodes (w : List UInt8) : Decodes (bytes w.length) w w := by
  intro front rest
  rw [bytes, if_pos (by simp)]
  simp

theorem bytes_decodes_of_length {n : ℕ} {w : List UInt8} (h : w.length = n) :
    Decodes (bytes n) w w := h ▸ bytes_decodes w

theorem toInt_ofNat_64 {n : ℕ} (h : n < 2 ^ 63) : (BitVec.ofNat 64 n).toInt = n := by
  rw [BitVec.toInt_eq_toNat_cond, BitVec.toNat_ofNat, Nat.mod_eq_of_lt (by omega),
    if_pos (by omega)]

theorem readUint64_decodes {n : ℕ} (h : n < 2 ^ 63) :
    Decodes readUint64 (LittleEndian.bytes 8 n) n := by
  -- below 2^63 the sign bit is clear
  have hread := (bytes_decodes_of_length (LittleEndian.bytes_length 8 n)).bind_pure
    fun bs => (BitVec.ofNat 64 (LittleEndian.value bs)).toInt
  rwa [LittleEndian.value_bytes_of_lt (by omega), toInt_ofNat_64 h] at hread

theorem readUint32_decodes (v : UInt32) :
    Decodes readUint32 (Writer.writeScalar .u32 v.toBitVec) v.toNat := by
  have hread := (bytes_decodes_of_length (LittleEndian.bytes_length 4 v.toNat)).bind_pure
    fun bs => (LittleEndian.value bs : ℤ)
  rwa [LittleEndian.value_bytes_of_lt (by have := v.toNat_lt; omega)] at hread

theorem readInt32_decodes (v : Int32) :
    Decodes readInt32 (Writer.writeScalar .i32 v.toBitVec) v.toInt := by
  have hread := (bytes_decodes_of_length (LittleEndian.bytes_length 4 v.toBitVec.toNat)).bind_pure
    fun bs => (BitVec.ofNat 32 (LittleEndian.value bs)).toInt
  rwa [LittleEndian.value_bytes_of_lt (by have := v.toBitVec.isLt; omega),
    BitVec.ofNat_toNat, BitVec.setWidth_eq] at hread

theorem readBool_decodes (v : Bool) : Decodes readBool (Writer.writeBool v) v := by
  have hread := (bytes_decodes (Writer.writeBool v)).bind_pure fun bs => LittleEndian.value bs != 0
  cases v <;> exact hread

theorem view_decodes (w : List UInt8) : Decodes (view w.length) w w := by
  rw [view, if_pos (Int.natCast_nonneg _), Int.toNat_natCast]
  exact bytes_decodes w

theorem decodeText_decodes {s : CppString} (h : s.Portable) :
    Decodes (decodeText s.val) [] s.text := by
  intro front rest
  rw [decodeText, CppString.decode_text h]
  rfl

theorem readString_decodes {s : CppString} (h : s.Portable) :
    Decodes readString (Writer.writeString s) s.text :=
  (readUint64_decodes s.2).bind ((view_decodes s.val).bind_nil (decodeText_decodes h))

end BinaryReader

/-! ### The Dart object with a struct's values -/

open Native

def ofFpRef (v : FpRef) : FlatpakRef :=
  ⟨v.kind.text, v.name.text, v.arch.text, v.branch.text, v.commit.text, v.collectionId.text⟩

def ofInstalledApp (v : InstalledApp) : FlatpakApplication :=
  ⟨ofFpRef v.ref, v.origin.text, v.latestCommit.text, v.installedPath.text,
    v.installedSize.toNat, v.isCurrentArch, v.endOfLife, v.endOfLifeRebase.text,
    v.appDataName.text, v.appDataSummary.text, v.appDataVersion.text, v.appDataIcon.text⟩

def ofFpInstance (v : FpInstance) : FlatpakInstance :=
  ⟨v.appId.text, v.instanceId.text, v.arch.text, v.branch.text, v.commit.text, v.runtime.text,
    v.pid.toInt, v.childPid.toInt, v.isRunning⟩

def ofFpInstallationInfo (v : FpInstallationInfo) : FlatpakInstallationInfo :=
  ⟨v.id.text, v.displayName.text, v.path.text, v.isUser, v.priority.toInt⟩

def ofFpMetadataEntry (v : FpMetadataEntry) : FlatpakPermission :=
  ⟨v.section_.text, v.key.text, v.value.text⟩

/-- `subset` and `remoteType` go through their documented mappings. -/
def ofFlatpakRemoteInfo (v : FlatpakRemoteInfo) : FlatpakRemote :=
  ⟨v.name.text, v.url.text, v.title.text, v.comment.text, v.description.text, v.homepage.text,
    v.defaultBranch.text, RemoteSubset.fromApiValue v.subset.text, v.collectionId.text,
    v.filter.text, GlazeCodec.decodeRemoteType v.remoteType.toInt, v.disabled, v.gpgVerify,
    v.noDeps, v.priority.toInt⟩

def ofTransactionProgress (v : TransactionProgress) : TransactionProgressData :=
  ⟨v.op.text, v.ref.text, v.progress.toNat, v.bytesTransferred.toNat, v.bytesTotal.toNat,
    v.status.text⟩

def ofMetadataEntry (v : FpMetadataEntry) : MetadataEntry :=
  ⟨v.section_.text, v.key.text, v.value.text⟩

namespace GlazeCodec

open BinaryReader

/-! ### One pass per struct -/

theorem readFlatpakRef_decodes {v : FpRef} (h : Portable v) :
    Decodes readFlatpakRef (writeBinary v) (ofFpRef v) := by
  obtain ⟨hkind, hname, harch, hbranch, hcommit, hcollectionId, -⟩ := h
  exact (readString_decodes hkind).bind <| (readString_decodes hname).bind <|
    (readString_decodes harch).bind <| (readString_decodes hbranch).bind <|
    (readString_decodes hcommit).bind <| (readString_decodes hcollectionId).bind <| .pure _

theorem readInstalledApp_decodes {v : InstalledApp} (h : Portable v) :
    Decodes readInstalledApp (writeBinary v) (ofInstalledApp v) := by
  obtain ⟨href, horigin, hcommit, hpath, hsize, -, -, hrebase, hname, hsummary, hversion,
    hicon, -⟩ := h
  exact (readFlatpakRef_decodes href).bind <| (readString_decodes horigin).bind <|
    (readString_decodes hcommit).bind <| (readString_decodes hpath).bind <|
    (readUint64_decodes (hsize rfl)).bind <| (readBool_decodes v.isCurrentArch).bind <|
    (readBool_decodes v.endOfLife).bind <| (readString_decodes hrebase).bind <|
    (readString_decodes hname).bind <| (readString_decodes hsummary).bind <|
    (readString_decodes hversion).bind <| (readString_decodes hicon).bind <| .pure _

theorem readInstance_decodes {v : FpInstance} (h : Portable v) :
    Decodes readInstance (writeBinary v) (ofFpInstance v) := by
  obtain ⟨happ, hinstance, harch, hbranch, hcommit, hruntime, -⟩ := h
  exact (readString_decodes happ).bind <| (readString_decodes hinstance).bind <|
    (readString_decodes harch).bind <| (readString_decodes hbranch).bind <|
    (readString_decodes hcommit).bind <| (readString_decodes hruntime).bind <|
    (readInt32_decodes v.pid).bind <| (readInt32_decodes v.childPid).bind <|
    (readBool_decodes v.isRunning).bind <| .pure _

theorem readInstallationInfo_decodes {v : FpInstallationInfo} (h : Portable v) :
    Decodes readInstallationInfo (writeBinary v) (ofFpInstallationInfo v) := by
  obtain ⟨hid, hname, hpath, -⟩ := h
  exact (readString_decodes hid).bind <| (readString_decodes hname).bind <|
    (readString_decodes hpath).bind <| (readBool_decodes v.isUser).bind <|
    (readInt32_decodes v.priority).bind <| .pure _

theorem readMetadataEntry_decodes {v : FpMetadataEntry} (h : Portable v) :
    Decodes readMetadataEntry (writeBinary v) (ofFpMetadataEntry v) := by
  obtain ⟨hsection, hkey, hvalue, -⟩ := h
  exact (readString_decodes hsection).bind <| (readString_decodes hkey).bind <|
    (readString_decodes hvalue).bind <| .pure _

theorem readFlatpakRemote_decodes {v : FlatpakRemoteInfo} (h : Portable v) :
    Decodes readFlatpakRemote (writeBinary v) (ofFlatpakRemoteInfo v) := by
  obtain ⟨hname, hurl, htitle, hcomment, hdescription, hhomepage, hbranch, hsubset,
    hcollectionId, hfilter, -⟩ := h
  exact (readString_decodes hname).bind <| (readString_decodes hurl).bind <|
    (readString_decodes htitle).bind <| (readString_decodes hcomment).bind <|
    (readString_decodes hdescription).bind <| (readString_decodes hhomepage).bind <|
    (readString_decodes hbranch).bind <| (readString_decodes hsubset).bind <|
    (readString_decodes hcollectionId).bind <| (readString_decodes hfilter).bind <|
    (readInt32_decodes v.remoteType).bind <| (readBool_decodes v.disabled).bind <|
    (readBool_decodes v.gpgVerify).bind <| (readBool_decodes v.noDeps).bind <|
    (readInt32_decodes v.priority).bind <| .pure _

theorem readTransactionProgress_decodes {v : TransactionProgress} (h : Portable v) :
    Decodes readTransactionProgress (writeBinary v) (ofTransactionProgress v) := by
  obtain ⟨hop, href, -, htransferred, htotal, hstatus, -⟩ := h
  exact (readString_decodes hop).bind <| (readString_decodes href).bind <|
    (readUint32_decodes v.progress).bind <| (readUint64_decodes (htransferred rfl)).bind <|
    (readUint64_decodes (htotal rfl)).bind <| (readString_decodes hstatus).bind <| .pure _

/-! ### Remote metadata -/

/-- What `fetch_remote_metadata` writes: a count, and three strings for each
entry. -/
def writeEntries (entries : CppVector FpMetadataEntry) : List UInt8 :=
  Writer.writeSize entries.val.length ++ entries.val.flatMap fun e =>
    Writer.writeString e.section_ ++ (Writer.writeString e.key ++ Writer.writeString e.value)

theorem readEntry_decodes {v : FpMetadataEntry} (h : Portable v) :
    Decodes readEntry (Writer.writeString v.section_ ++
      (Writer.writeString v.key ++ Writer.writeString v.value)) (ofMetadataEntry v) := by
  obtain ⟨hsection, hkey, hvalue, -⟩ := h
  exact (readString_decodes hsection).bind <| (readString_decodes hkey).bind <|
    (readString_decodes hvalue).bind_pure _

theorem readEntries_decodes {l : List FpMetadataEntry} (h : ∀ v ∈ l, Portable v) :
    Decodes (readEntries l.length) (l.flatMap fun e => Writer.writeString e.section_ ++
      (Writer.writeString e.key ++ Writer.writeString e.value)) (l.map ofMetadataEntry) := by
  induction l with
  | nil => exact .pure []
  | cons v l ih =>
    have hrest := ih fun u hu => h u (List.mem_cons_of_mem v hu)
    exact (readEntry_decodes (h v List.mem_cons_self)).bind (hrest.bind_pure _)

theorem readRemoteMetadata_decodes {l : CppVector FpMetadataEntry}
    (h : ∀ v ∈ l.val, Portable v) :
    Decodes readRemoteMetadata (writeEntries l) (l.val.map ofMetadataEntry) := by
  refine (readUint64_decodes l.2).bind ?_
  rw [Int.toNat_natCast]
  exact readEntries_decodes h

/-! ### Errors -/

open FlatpakNc

theorem postFramedError_length (disc : UInt8) (msg : CString) :
    (postFramedError disc msg).length = 1 + 4 + msg.bytes.length % 2 ^ 32 := by
  have hmin : min (msg.bytes.length % 2 ^ 32) msg.bytes.length = msg.bytes.length % 2 ^ 32 :=
    Nat.min_eq_left (Nat.mod_le _ _)
  rw [postFramedError, List.length_cons, List.length_append, LittleEndian.bytes_length,
    List.length_take, hmin]
  omega

/-- The decoder sees the message cut at its length modulo 2^32. -/
theorem decodeError_postFramedError (disc : UInt8) (msg : CString) :
    decodeError (.ofList (postFramedError disc msg)) 1
      = Text.utf8Decode (msg.bytes.take (msg.bytes.length % 2 ^ 32)) := by
  set n := msg.bytes.length % 2 ^ 32 with hn
  have hlt : n < 2 ^ 32 := Nat.mod_lt _ (Nat.two_pow_pos 32)
  have hlen : (postFramedError disc msg).length = 1 + 4 + n := postFramedError_length disc msg
  have hbody : (postFramedError disc msg).drop 1 = LittleEndian.bytes 4 n ++ msg.bytes.take n := rfl
  -- the length that is read is the one that was cut to 32 bits
  have hvalue : LittleEndian.value (((postFramedError disc msg).drop 1).take 4) = n := by
    rw [hbody, List.take_left' (LittleEndian.bytes_length 4 n)]
    exact LittleEndian.value_bytes_of_lt (by omega)
  have htext : ((postFramedError disc msg).take (1 + 4 + n)).drop (1 + 4) = msg.bytes.take n := by
    rw [← hlen, List.take_length, ← List.drop_drop, hbody,
      List.drop_left' (LittleEndian.bytes_length 4 n)]
  rw [decodeError, if_neg (by rw [Uint8List.length_ofList, hlen]; omega)]
  simp only [Uint8List.asByteData_ofList, Uint8List.length_ofList, hvalue]
  rw [if_neg (by rw [hlen]; omega), Uint8List.sublist_ofList, htext]

/-- A message whose length fits its 32 bits arrives whole. -/
theorem decodeError_whole (disc : UInt8) {msg : CString} {s : String}
    (hmsg : msg.bytes = Text.utf8Encode s) (hmark : ¬ Text.byteOrderMark <+: msg.bytes)
    (hlen : msg.bytes.length < 2 ^ 32) :
    decodeError (.ofList (postFramedError disc msg)) 1 = some s := by
  rw [decodeError_postFramedError, Nat.mod_eq_of_lt hlen, List.take_length, hmsg]
  exact Text.utf8Decode_encode (hmsg ▸ hmark)

/-- **The two ends agree**: whatever struct of portable values is posted, and
under whatever discriminator, the matching decoder gives back its values; so
does `decodeError` for every message shorter than 4 GiB. -/
theorem wire_agreement (disc : UInt8) :
    (∀ v : FpRef, Portable v →
      decodeFlatpakRef (.ofList (postFramed disc (writeBinary v))) 1 = some (ofFpRef v)) ∧
    (∀ v : InstalledApp, Portable v →
      decodeInstalledApp (.ofList (postFramed disc (writeBinary v))) 1
        = some (ofInstalledApp v)) ∧
    (∀ v : FpInstance, Portable v →
      decodeInstance (.ofList (postFramed disc (writeBinary v))) 1 = some (ofFpInstance v)) ∧
    (∀ v : FpInstallationInfo, Portable v →
      decodeInstallationInfo (.ofList (postFramed disc (writeBinary v))) 1
        = some (ofFpInstallationInfo v)) ∧
    (∀ v : FpMetadataEntry, Portable v →
      decodeMetadataEntry (.ofList (postFramed disc (writeBinary v))) 1
        = some (ofFpMetadataEntry v)) ∧
    (∀ v : FlatpakRemoteInfo, Portable v →
      decodeFlatpakRemote (.ofList (postFramed disc (writeBinary v))) 1
        = some (ofFlatpakRemoteInfo v)) ∧
    (∀ v : TransactionProgress, Portable v →
      decodeTransactionProgress (.ofList (postFramed disc (writeBinary v))) 1
        = some (ofTransactionProgress v)) ∧
    (∀ l : CppVector FpMetadataEntry, (∀ v ∈ l.val, Portable v) →
      decodeRemoteMetadata (.ofList (postFramed disc (writeEntries l))) 1
        = some (l.val.map ofMetadataEntry)) ∧
    (∀ (msg : CString) (s : String), msg.bytes = Text.utf8Encode s →
      ¬ Text.byteOrderMark <+: msg.bytes → msg.bytes.length < 2 ^ 32 →
      decodeError (.ofList (postFramedError disc msg)) 1 = some s) := by
  refine ⟨?_, ?_, ?_, ?_, ?_, ?_, ?_, ?_, ?_⟩
  · intro v h
    exact (readFlatpakRef_decodes h).frame disc
  · intro v h
    exact (readInstalledApp_decodes h).frame disc
  · intro v h
    exact (readInstance_decodes h).frame disc
  · intro v h
    exact (readInstallationInfo_decodes h).frame disc
  · intro v h
    exact (readMetadataEntry_decodes h).frame disc
  · intro v h
    exact (readFlatpakRemote_decodes h).frame disc
  · intro v h
    exact (readTransactionProgress_decodes h).frame disc
  · intro l h
    exact (readRemoteMetadata_decodes h).frame disc
  · intro msg s hmsg hmark hlen
    exact decodeError_whole disc hmsg hmark hlen

/-- The message `aa…a`, as the C++ side holds it. -/
def repeated (n : ℕ) (h : n < 2 ^ 63) : CString where
  bytes := List.replicate n 0x61
  nulFree := fun h0 => absurd (List.eq_of_mem_replicate h0) (by decide)
  bounded := by rwa [List.length_replicate]

theorem repeated_encode {n : ℕ} (h : n < 2 ^ 63) :
    (repeated n h).bytes = Text.utf8Encode (String.ofList (List.replicate n 'a')) := by
  have hletter : String.utf8EncodeChar 'a' = [0x61] := by decide
  rw [Text.utf8Encode, String.toList_ofList, List.flatMap_replicate, hletter,
    List.flatten_replicate_singleton]
  rfl

theorem repeated_length {n : ℕ} (h : n < 2 ^ 63) : (repeated n h).bytes.length = n :=
  List.length_replicate

theorem repeated_unmarked {n : ℕ} (h : n < 2 ^ 63) :
    ¬ Text.byteOrderMark <+: (repeated n h).bytes := fun hmark => by
  have hfirst := hmark.subset (a := 0xEF) List.mem_cons_self
  exact absurd (List.eq_of_mem_replicate hfirst) (by decide)

theorem repeated_ne_empty {n : ℕ} (h : n ≠ 0) : String.ofList (List.replicate n 'a') ≠ "" := by
  intro heq
  have hlist : List.replicate n 'a' = "".toList := by rw [← heq, String.toList_ofList]
  exact h (List.length_replicate.symm.trans (congrArg List.length hlist))

/-- The length on the wire is 0. -/
theorem decodeError_repeated (disc : UInt8) (h : 2 ^ 32 < 2 ^ 63) :
    decodeError (.ofList (postFramedError disc (repeated (2 ^ 32) h))) 1 = some "" := by
  rw [decodeError_postFramedError, repeated_length h, Nat.mod_self, List.take_zero]
  exact Text.utf8Decode_encode (s := "") (by decide)

/-- A message of 4 GiB arrives as the empty string: its length wraps to 0. -/
theorem decodeError_wraps :
    ∃ msg : CString, msg.bytes = Text.utf8Encode (String.ofList (List.replicate (2 ^ 32) 'a')) ∧
      ¬ Text.byteOrderMark <+: msg.bytes ∧
      decodeError (.ofList (postFramedError 0x02 msg)) 1 = some "" ∧
      String.ofList (List.replicate (2 ^ 32) 'a') ≠ "" := by
  have hbound : 2 ^ 32 < 2 ^ 63 := by decide
  exact ⟨repeated (2 ^ 32) hbound, repeated_encode hbound, repeated_unmarked hbound,
    decodeError_repeated 0x02 hbound, repeated_ne_empty (Nat.two_pow_pos 32).ne'⟩

end GlazeCodec

end Dart
