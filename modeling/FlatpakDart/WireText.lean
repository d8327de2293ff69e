/-
Well-formed text crosses the wire.

`Portable` values arrive as they are.  Of `WellFormed` ones it is asked only that their
strings are UTF-8: a byte order mark in front is dropped and a size from 2^63 on is read
as a negative number, but no decoder throws.  `Decodable d w` says that the decoder `d`
takes the bytes `w` for something.

* `readInstalledApp_decodable`, `readFlatpakRemote_decodable`, … — each decoder takes
  whatever well-formed struct was written;
* `decodeError_text` — and `decodeError` each message of less than 4 GiB.
-/
import FlatpakDart.WireAgreement

open Glz Native

namespace Text

theorem encode_mark : [Char.ofNat 0xFEFF].utf8Encode = byteOrderMark.toByteArray := by
  decide +kernel

/-- Well-formed text decodes, with or without the mark. -/
theorem utf8Decode_wellFormed (s : String) : ∃ t, utf8Decode (utf8Encode s) = some t := by
  by_cases hmark : byteOrderMark <+: utf8Encode s
  · obtain ⟨rest, hrest⟩ := hmark
    have hdrop : dropMark (utf8Encode s) = rest := by
      rw [dropMark, if_pos ⟨rest, hrest⟩, ← hrest]
      rfl
    -- the mark is a character, and what follows it is text again
    have hvalid : (byteOrderMark.toByteArray ++ rest.toByteArray).IsValidUTF8 := by
      rw [← List.toByteArray_append, hrest, toByteArray_encode]
      exact s.isValidUTF8
    rw [← encode_mark, ByteArray.isValidUTF8_utf8Encode_singleton_append_iff] at hvalid
    exact ⟨_, by rw [utf8Decode, hdrop, String.fromUTF8?, dif_pos hvalid]⟩
  · exact ⟨s, utf8Decode_encode hmark⟩

end Text

/-- The bytes are UTF-8. -/
def CString.WellFormed (s : CString) : Prop := ∃ t, s.bytes = Text.utf8Encode t

namespace Glz

/-- The bytes are UTF-8. -/
def CppString.WellFormed (s : CppString) : Prop := ∃ t, s.val = Text.utf8Encode t

mutual

/-- Every string in the value is UTF-8. -/
def Elem.WellFormed : (e : Elem) → e.den → Prop
  | .string, s => CppString.WellFormed s
  | .scalar _, _ => True
  | .struct fs, v => fs.WellFormed v

def Field.WellFormed : (f : Field) → f.den → Prop
  | .elem e, v => e.WellFormed v
  | .bool, _ => True
  | .vector e, v => ∀ a ∈ v.val, e.WellFormed a
  | .optional e, v => Option.elim (show Option e.den from v) True e.WellFormed

def Fields.WellFormed : (fs : Fields) → fs.den → Prop
  | .nil, _ => True
  | .cons _ f fs, v => f.WellFormed v.1 ∧ fs.WellFormed v.2

end

/-- A struct whose strings are UTF-8. -/
def WellFormed {T : Type} [Reflectable T] (v : T) : Prop :=
  (Reflectable.fields T).WellFormed (Reflectable.get v)

end Glz

namespace Dart

/-- The decoder takes `w` for some value, wherever `w` lies in a message. -/
def Decodable {α : Type} (d : Decoder α) (w : List UInt8) : Prop := ∃ a, Decodes d w a

theorem Decodes.decodable {α : Type} {d : Decoder α} {w : List UInt8} {a : α}
    (h : Decodes d w a) : Decodable d w := ⟨a, h⟩

namespace Decodable

variable {α β : Type} {d : Decoder α} {f : α → Decoder β} {w w' : List UInt8}

theorem pure (a : α) : Decodable (pure a) [] := ⟨a, .pure a⟩

theorem bind (hd : Decodable d w) (hf : ∀ a, Decodable (f a) w') :
    Decodable (d >>= f) (w ++ w') := by
  obtain ⟨a, ha⟩ := hd
  obtain ⟨b, hb⟩ := hf a
  exact ⟨b, ha.bind hb⟩

theorem bind_nil (hd : Decodable d w) (hf : ∀ a, Decodable (f a) []) :
    Decodable (d >>= f) w := by
  have h := hd.bind hf
  rwa [List.append_nil] at h

/-- What decodes a payload decodes it behind a discriminator. -/
theorem frame (hd : Decodable d w) (disc : UInt8) :
    ∃ a, GlazeCodec.decode d (.ofList (FlatpakNc.postFramed disc w)) 1 = some a := by
  obtain ⟨a, ha⟩ := hd
  exact ⟨a, ha.frame disc⟩

end Decodable

/-! ### Primitives -/

namespace BinaryReader

theorem readUint64_decodable (n : ℕ) : Decodable readUint64 (LittleEndian.bytes 8 n) :=
  ((bytes_decodes_of_length (LittleEndian.bytes_length 8 n)).bind_pure
    fun bs => (BitVec.ofNat 64 (LittleEndian.value bs)).toInt).decodable

theorem readString_decodable {s : CppString} (h : s.WellFormed) :
    Decodable readString (Writer.writeString s) := by
  obtain ⟨t, ht⟩ := h
  obtain ⟨u, hu⟩ := Text.utf8Decode_wellFormed t
  have htext : Decodes (decodeText s.val) [] u := fun front rest => by
    rw [decodeText, ht, hu]
    rfl
  exact ((readUint64_decodes s.2).bind ((view_decodes s.val).bind_nil htext)).decodable

end BinaryReader

namespace GlazeCodec

open BinaryReader

/-! ### One pass per struct -/

theorem readFlatpakRef_decodable {v : FpRef} (h : WellFormed v) :
    Decodable readFlatpakRef (writeBinary v) := by
  obtain ⟨hkind, hname, harch, hbranch, hcommit, hcollectionId, -⟩ := h
  exact (readString_decodable hkind).bind fun _ => (readString_decodable hname).bind fun _ =>
    (readString_decodable harch).bind fun _ => (readString_decodable hbranch).bind fun _ =>
    (readString_decodable hcommit).bind fun _ => (readString_decodable hcollectionId).bind
    fun _ => .pure _

theorem readInstalledApp_decodable {v : InstalledApp} (h : WellFormed v) :
    Decodable readInstalledApp (writeBinary v) := by
  obtain ⟨href, horigin, hcommit, hpath, -, -, -, hrebase, hname, hsummary, hversion, hicon,
    -⟩ := h
  exact (readFlatpakRef_decodable href).bind fun _ => (readString_decodable horigin).bind
    fun _ => (readString_decodable hcommit).bind fun _ => (readString_decodable hpath).bind
    fun _ => (readUint64_decodable v.installedSize.toNat).bind fun _ =>
    (readBool_decodes v.isCurrentArch).decodable.bind fun _ =>
    (readBool_decodes v.endOfLife).decodable.bind fun _ => (readString_decodable hrebase).bind
    fun _ => (readString_decodable hname).bind fun _ => (readString_decodable hsummary).bind
    fun _ => (readString_decodable hversion).bind fun _ => (readString_decodable hicon).bind
    fun _ => .pure _

theorem readInstance_decodable {v : FpInstance} (h : WellFormed v) :
    Decodable readInstance (writeBinary v) := by
  obtain ⟨happ, hinstance, harch, hbranch, hcommit, hruntime, -⟩ := h
  exact (readString_decodable happ).bind fun _ => (readString_decodable hinstance).bind
    fun _ => (readString_decodable harch).bind fun _ => (readString_decodable hbranch).bind
    fun _ => (readString_decodable hcommit).bind fun _ => (readString_decodable hruntime).bind
    fun _ => (readInt32_decodes v.pid).decodable.bind fun _ =>
    (readInt32_decodes v.childPid).decodable.bind fun _ =>
    (readBool_decodes v.isRunning).decodable.bind fun _ => .pure _

theorem readInstallationInfo_decodable {v : FpInstallationInfo} (h : WellFormed v) :
    Decodable readInstallationInfo (writeBinary v) := by
  obtain ⟨hid, hname, hpath, -⟩ := h
  exact (readString_decodable hid).bind fun _ => (readString_decodable hname).bind fun _ =>
    (readString_decodable hpath).bind fun _ => (readBool_decodes v.isUser).decodable.bind
    fun _ => (readInt32_decodes v.priority).decodable.bind fun _ => .pure _

theorem readMetadataEntry_decodable {v : FpMetadataEntry} (h : WellFormed v) :
    Decodable readMetadataEntry (writeBinary v) := by
  obtain ⟨hsection, hkey, hvalue, -⟩ := h
  exact (readString_decodable hsection).bind fun _ => (readString_decodable hkey).bind
    fun _ => (readString_decodable hvalue).bind fun _ => .pure _

theorem readFlatpakRemote_decodable {v : FlatpakRemoteInfo} (h : WellFormed v) :
    Decodable readFlatpakRemote (writeBinary v) := by
  obtain ⟨hname, hurl, htitle, hcomment, hdescription, hhomepage, hbranch, hsubset,
    hcollectionId, hfilter, -⟩ := h
  exact (readString_decodable hname).bind fun _ => (readString_decodable hurl).bind fun _ =>
    (readString_decodable htitle).bind fun _ => (readString_decodable hcomment).bind fun _ =>
    (readString_decodable hdescription).bind fun _ => (readString_decodable hhomepage).bind
    fun _ => (readString_decodable hbranch).bind fun _ => (readString_decodable hsubset).bind
    fun _ => (readString_decodable hcollectionId).bind fun _ =>
    (readString_decodable hfilter).bind fun _ =>
    (readInt32_decodes v.remoteType).decodable.bind fun _ =>
    (readBool_decodes v.disabled).decodable.bind fun _ =>
    (readBool_decodes v.gpgVerify).decodable.bind fun _ =>
    (readBool_decodes v.noDeps).decodable.bind fun _ =>
    (readInt32_decodes v.priority).decodable.bind fun _ => .pure _

theorem readEntry_decodable {v : FpMetadataEntry} (h : WellFormed v) :
    Decodable readEntry (Writer.writeString v.section_ ++
      (Writer.writeString v.key ++ Writer.writeString v.value)) := by
  obtain ⟨hsection, hkey, hvalue, -⟩ := h
  exact (readString_decodable hsection).bind fun _ => (readString_decodable hkey).bind
    fun _ => (readString_decodable hvalue).bind_nil fun _ => .pure _

theorem readEntries_decodable {l : List FpMetadataEntry} (h : ∀ v ∈ l, WellFormed v) :
    Decodable (readEntries l.length) (l.flatMap fun e => Writer.writeString e.section_ ++
      (Writer.writeString e.key ++ Writer.writeString e.value)) := by
  induction l with
  | nil => exact .pure []
  | cons v l ih =>
    have hrest := ih fun u hu => h u (List.mem_cons_of_mem v hu)
    exact (readEntry_decodable (h v List.mem_cons_self)).bind fun _ =>
      hrest.bind_nil fun _ => .pure _

theorem readRemoteMetadata_decodable {l : CppVector FpMetadataEntry}
    (h : ∀ v ∈ l.val, WellFormed v) : Decodable readRemoteMetadata (writeEntries l) := by
  obtain ⟨es, hes⟩ := readEntries_decodable h
  refine ⟨es, (readUint64_decodes l.2).bind ?_⟩
  rw [Int.toNat_natCast]
  exact hes

/-! ### Errors and strings -/

/-- A message that is UTF-8 and whose length fits its 32 bits. -/
structure Sendable (msg : CString) : Prop where
  wellFormed : msg.WellFormed
  short : msg.bytes.length < 2 ^ 32

theorem Sendable.text {msg : CString} (h : Sendable msg) :
    ∃ text, Text.utf8Decode msg.bytes = some text := by
  obtain ⟨t, ht⟩ := h.wellFormed
  rw [ht]
  exact Text.utf8Decode_wellFormed t

/-- Such a message arrives whole. -/
theorem decodeError_text (disc : UInt8) {msg : CString} (h : Sendable msg) :
    decodeError (.ofList (FlatpakNc.postFramedError disc msg)) 1 =
      Text.utf8Decode msg.bytes := by
  rw [decodeError_postFramedError, Nat.mod_eq_of_lt h.short, List.take_length]

end GlazeCodec

end Dart
