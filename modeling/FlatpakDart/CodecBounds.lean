/-
What the decoders see of a message (`lib/src/ffi/codec.dart`).

`_BinaryReader` reads from the start of a list to the end of the buffer behind it.  The
words of a message are a language of their own here, `Message.payload`, and `Follows d K`
says that the decoder `d` takes the words of `K` wherever they lie, and nothing else.

* `Message.decoder_follows` — each decoder follows the layout of its struct, in which the
  C++ side writes it (`written_mem_payload`);
* `sealed_iff` — a decoder sees only the list it is given, exactly if that is not the
  beginning of a longer message.
-/
import FlatpakDart.WireText
import Mathlib.Computability.Language

open Glz Native

namespace Dart

/-! ### Decoders and languages -/

/-- The decoder takes the words of `K`, wherever they lie, and nothing else. -/
structure Follows {α : Type} (d : Decoder α) (K : Language UInt8) : Prop where
  takes : ∀ w ∈ K, Decodable d w
  only : ∀ {r r' a}, d r = some (a, r') →
    ∃ w ∈ K, w <+: r.data.drop r.pos ∧ r' = ⟨r.data, r.pos + w.length⟩

namespace Follows

variable {α β : Type} {d : Decoder α} {f : α → Decoder β} {K K' : Language UInt8}

theorem pure (a : α) : Follows (pure a) 1 where
  takes w hw := by
    obtain rfl := (Language.mem_one w).mp hw
    exact .pure a
  only h := by
    obtain ⟨rfl, rfl⟩ := Prod.mk.inj (Option.some.inj h)
    exact ⟨[], rfl, List.nil_prefix, rfl⟩

/-- One decoder after another follows the product. -/
theorem bind (hd : Follows d K) (hf : ∀ a, Follows (f a) K') : Follows (d >>= f) (K * K') where
  takes w hw := by
    obtain ⟨u, hu, v, hv, rfl⟩ := Language.mem_mul.mp hw
    exact (hd.takes u hu).bind fun a => (hf a).takes v hv
  only {r r' b} h := by
    obtain ⟨⟨a, q⟩, hfirst, hthen⟩ := Option.bind_eq_some_iff.mp h
    obtain ⟨u, hu, ⟨t, ht⟩, rfl⟩ := hd.only hfirst
    obtain ⟨v, hv, hbegins, rfl⟩ := (hf a).only hthen
    refine ⟨u ++ v, Language.append_mem_mul hu hv, ?_, by rw [List.length_append, Nat.add_assoc]⟩
    -- the second word is a prefix of what the first one left
    rw [← List.drop_drop, ← ht, List.drop_left' rfl] at hbegins
    rw [← ht]
    exact (List.prefix_append_right_inj u).mpr hbegins

/-- Whatever such a decoder takes is a word. -/
theorem mem_of_decodable (hd : Follows d K) {w : List UInt8} (h : Decodable d w) : w ∈ K := by
  obtain ⟨a, ha⟩ := h
  obtain ⟨u, hu, hbegins, hend⟩ := hd.only (ha [] [])
  have hlength : w.length = u.length := by simpa using hend
  have hword : u <+: w := by simpa using hbegins
  rwa [← hword.eq_of_length hlength.symm]

end Follows

/-! ### The words of a message -/

/-- Any bytes, so many. -/
def fixed (n : ℕ) : Language UInt8 := {w | w.length = n}

/-- What `getUint64` makes of eight bytes. -/
def signed (head : List UInt8) : ℤ := (BitVec.ofNat 64 (LittleEndian.value head)).toInt

/-- A number of eight bytes, and then what it announces. -/
def announced (K : ℤ → Language UInt8) : Language UInt8 :=
  {w | ∃ head body, w = head ++ body ∧ head.length = 8 ∧ body ∈ K (signed head)}

/-- The bytes of a string. -/
def characters (n : ℤ) : Language UInt8 :=
  {w | (w.length : ℤ) = n ∧ (Text.utf8Decode w).isSome}

/-- A string: its length, and UTF-8. -/
def text : Language UInt8 := announced characters

/-- The fields of a `FpRef`. -/
def ref : Language UInt8 := [text, text, text, text, text, text].prod

/-- `section`, `key` and `value`. -/
def entry : Language UInt8 := [text, text, text].prod

namespace BinaryReader

theorem bytes_eq_some {n : ℕ} {r q : BinaryReader} {w : List UInt8} (h : bytes n r = some (w, q)) :
    w.length = n ∧ w <+: r.data.drop r.pos ∧ q = ⟨r.data, r.pos + w.length⟩ := by
  obtain ⟨hfits, h⟩ := Option.ite_none_right_eq_some.mp h
  obtain ⟨rfl, rfl⟩ := Prod.mk.inj (Option.some.inj h)
  have hlength : ((r.data.drop r.pos).take n).length = n := by
    rw [List.length_take, List.length_drop]
    omega
  exact ⟨hlength, List.take_prefix n _, by rw [hlength]⟩

theorem bytes_follows (n : ℕ) : Follows (bytes n) (fixed n) where
  takes w hw := ⟨w, bytes_decodes_of_length hw⟩
  only h := ⟨_, bytes_eq_some h⟩

/-- A value that is made of so many bytes. -/
theorem bytes_map_follows {α : Type} (n : ℕ) (g : List UInt8 → α) :
    Follows (bytes n >>= fun bs => Pure.pure (g bs)) (fixed n) := by
  have h := (bytes_follows n).bind fun bs => Follows.pure (g bs)
  rwa [mul_one] at h

theorem readUint64_follows : Follows readUint64 (fixed 8) := bytes_map_follows 8 _

theorem readUint32_follows : Follows readUint32 (fixed 4) := bytes_map_follows 4 _

theorem readInt32_follows : Follows readInt32 (fixed 4) := bytes_map_follows 4 _

theorem readBool_follows : Follows readBool (fixed 1) := bytes_map_follows 1 _

/-- What comes after a number may depend on it. -/
theorem announced_follows {α : Type} {f : ℤ → Decoder α} {K : ℤ → Language UInt8}
    (hf : ∀ n, Follows (f n) (K n)) : Follows (readUint64 >>= f) (announced K) where
  takes w hw := by
    obtain ⟨head, body, rfl, hhead, hbody⟩ := hw
    obtain ⟨a, ha⟩ := (hf (signed head)).takes body hbody
    exact ⟨a, ((bytes_decodes_of_length hhead).bind_pure signed).bind ha⟩
  only {r r' b} h := by
    obtain ⟨⟨n, q⟩, hfirst, hthen⟩ := Option.bind_eq_some_iff.mp h
    obtain ⟨⟨head, q'⟩, hread, hpair⟩ := Option.bind_eq_some_iff.mp hfirst
    obtain ⟨rfl, rfl⟩ := Prod.mk.inj (Option.some.inj hpair)
    obtain ⟨hhead, ⟨t, ht⟩, rfl⟩ := bytes_eq_some hread
    obtain ⟨body, hbody, hbegins, rfl⟩ := (hf (signed head)).only hthen
    refine ⟨head ++ body, ⟨head, body, rfl, hhead, hbody⟩, ?_,
      by rw [List.length_append, Nat.add_assoc]⟩
    rw [← List.drop_drop, ← ht, List.drop_left' rfl] at hbegins
    rw [← ht]
    exact (List.prefix_append_right_inj head).mpr hbegins

theorem view_follows (n : ℤ) : Follows (view n >>= decodeText) (characters n) where
  takes w hw := by
    obtain ⟨rfl, htext⟩ := hw
    obtain ⟨s, hs⟩ := Option.isSome_iff_exists.mp htext
    refine ⟨s, (view_decodes w).bind_nil fun front rest => ?_⟩
    rw [decodeText, hs]
    rfl
  only {r r' b} h := by
    obtain ⟨⟨w, q⟩, hview, htext⟩ := Option.bind_eq_some_iff.mp h
    obtain ⟨s, hs, hpair⟩ := Option.map_eq_some_iff.mp htext
    obtain ⟨rfl, rfl⟩ := Prod.mk.inj hpair
    rw [view] at hview
    split at hview
    case isTrue hle =>
      obtain ⟨hlength, hbegins, hq⟩ := bytes_eq_some hview
      refine ⟨w, ⟨?_, Option.isSome_iff_exists.mpr ⟨s, hs⟩⟩, hbegins, hq⟩
      rw [hlength, Int.toNat_of_nonneg hle]
    case isFalse => cases hview

theorem readString_follows : Follows readString text := announced_follows view_follows

end BinaryReader

/-! ### Messages -/

/-- The messages that are decoded by a `_BinaryReader`. -/
inductive Message
  | flatpakRef
  | installedApp
  | instance_
  | installationInfo
  | metadataEntry
  | flatpakRemote
  | transactionProgress
  | remoteMetadata

namespace Message

def Result : Message → Type
  | flatpakRef => FlatpakRef
  | installedApp => FlatpakApplication
  | instance_ => FlatpakInstance
  | installationInfo => FlatpakInstallationInfo
  | metadataEntry => FlatpakPermission
  | flatpakRemote => FlatpakRemote
  | transactionProgress => TransactionProgressData
  | remoteMetadata => List MetadataEntry

open GlazeCodec

def decoder : (m : Message) → Decoder m.Result
  | flatpakRef => readFlatpakRef
  | installedApp => readInstalledApp
  | instance_ => readInstance
  | installationInfo => readInstallationInfo
  | metadataEntry => readMetadataEntry
  | flatpakRemote => readFlatpakRemote
  | transactionProgress => readTransactionProgress
  | remoteMetadata => readRemoteMetadata

/-- The layout of the message. -/
def payload : Message → Language UInt8
  | flatpakRef => ref
  | installedApp =>
    [ref, text, text, text, fixed 8, fixed 1, fixed 1, text, text, text, text,
      text].prod
  | instance_ => [text, text, text, text, text, text, fixed 4, fixed 4, fixed 1].prod
  | installationInfo => [text, text, text, fixed 1, fixed 4].prod
  | metadataEntry => entry
  | flatpakRemote =>
    [text, text, text, text, text, text, text, text, text, text, fixed 4, fixed 1, fixed 1,
      fixed 1, fixed 4].prod
  | transactionProgress => [text, text, fixed 4, fixed 8, fixed 8, text].prod
  | remoteMetadata => announced fun count => entry ^ count.toNat

/-- The `GlazeCodec.decode…` of a message. -/
def decodeFrom (m : Message) : Uint8List → ℕ → Option m.Result :=
  match m with
  | flatpakRef => decodeFlatpakRef
  | installedApp => decodeInstalledApp
  | instance_ => decodeInstance
  | installationInfo => decodeInstallationInfo
  | metadataEntry => decodeMetadataEntry
  | flatpakRemote => decodeFlatpakRemote
  | transactionProgress => decodeTransactionProgress
  | remoteMetadata => decodeRemoteMetadata

/-- The same at any offset; in front of the list nothing is read. -/
def decode (m : Message) (data : Uint8List) : ℤ → Option m.Result
  | .ofNat offset => m.decodeFrom data offset
  | .negSucc _ => none

theorem decodeFrom_eq (m : Message) (data : Uint8List) (offset : ℕ) :
    m.decodeFrom data offset = GlazeCodec.decode m.decoder data offset := by
  cases m <;> rfl

open BinaryReader

theorem readFlatpakRef_follows : Follows readFlatpakRef ref :=
  readString_follows.bind fun _ => readString_follows.bind fun _ =>
  readString_follows.bind fun _ => readString_follows.bind fun _ =>
  readString_follows.bind fun _ => readString_follows.bind fun _ => .pure _

theorem readEntry_follows : Follows readEntry entry :=
  readString_follows.bind fun _ => readString_follows.bind fun _ =>
  readString_follows.bind fun _ => .pure _

theorem readEntries_follows (n : ℕ) : Follows (readEntries n) (entry ^ n) := by
  induction n with
  | zero => exact .pure []
  | succ n ih =>
    have h := readEntry_follows.bind fun e => ih.bind fun es => .pure (e :: es)
    rwa [mul_one, ← pow_succ'] at h

/-- **Each decoder follows the layout of its message.** -/
theorem decoder_follows (m : Message) : Follows m.decoder m.payload := by
  cases m with
  | flatpakRef => exact readFlatpakRef_follows
  | installedApp =>
    exact readFlatpakRef_follows.bind fun _ => readString_follows.bind fun _ =>
      readString_follows.bind fun _ => readString_follows.bind fun _ =>
      readUint64_follows.bind fun _ => readBool_follows.bind fun _ =>
      readBool_follows.bind fun _ => readString_follows.bind fun _ =>
      readString_follows.bind fun _ => readString_follows.bind fun _ =>
      readString_follows.bind fun _ => readString_follows.bind fun _ => .pure _
  | instance_ =>
    exact readString_follows.bind fun _ => readString_follows.bind fun _ =>
      readString_follows.bind fun _ => readString_follows.bind fun _ =>
      readString_follows.bind fun _ => readString_follows.bind fun _ =>
      readInt32_follows.bind fun _ => readInt32_follows.bind fun _ =>
      readBool_follows.bind fun _ => .pure _
  | installationInfo =>
    exact readString_follows.bind fun _ => readString_follows.bind fun _ =>
      readString_follows.bind fun _ => readBool_follows.bind fun _ =>
      readInt32_follows.bind fun _ => .pure _
  | metadataEntry =>
    exact readString_follows.bind fun _ => readString_follows.bind fun _ =>
      readString_follows.bind fun _ => .pure _
  | flatpakRemote =>
    exact readString_follows.bind fun _ => readString_follows.bind fun _ =>
      readString_follows.bind fun _ => readString_follows.bind fun _ =>
      readString_follows.bind fun _ => readString_follows.bind fun _ =>
      readString_follows.bind fun _ => readString_follows.bind fun _ =>
      readString_follows.bind fun _ => readString_follows.bind fun _ =>
      readInt32_follows.bind fun _ => readBool_follows.bind fun _ =>
      readBool_follows.bind fun _ => readBool_follows.bind fun _ =>
      readInt32_follows.bind fun _ => .pure _
  | transactionProgress =>
    exact readString_follows.bind fun _ => readString_follows.bind fun _ =>
      readUint32_follows.bind fun _ => readUint64_follows.bind fun _ =>
      readUint64_follows.bind fun _ => readString_follows.bind fun _ => .pure _
  | remoteMetadata => exact announced_follows fun count => readEntries_follows count.toNat

/-- **What is posted of well-formed structs is a payload.** -/
theorem written_mem_payload :
    (∀ v : FpRef, WellFormed v → writeBinary v ∈ flatpakRef.payload) ∧
    (∀ v : InstalledApp, WellFormed v → writeBinary v ∈ installedApp.payload) ∧
    (∀ v : FpInstance, WellFormed v → writeBinary v ∈ instance_.payload) ∧
    (∀ v : FpInstallationInfo, WellFormed v → writeBinary v ∈ installationInfo.payload) ∧
    (∀ v : FpMetadataEntry, WellFormed v → writeBinary v ∈ metadataEntry.payload) ∧
    (∀ v : FlatpakRemoteInfo, WellFormed v → writeBinary v ∈ flatpakRemote.payload) ∧
    (∀ v : TransactionProgress, Portable v → writeBinary v ∈ transactionProgress.payload) ∧
    ∀ l : CppVector FpMetadataEntry, (∀ v ∈ l.val, WellFormed v) →
      writeEntries l ∈ remoteMetadata.payload := by
  refine ⟨fun v h => ?_, fun v h => ?_, fun v h => ?_, fun v h => ?_, fun v h => ?_,
    fun v h => ?_, fun v h => ?_, fun l h => ?_⟩
  · exact (decoder_follows flatpakRef).mem_of_decodable (readFlatpakRef_decodable h)
  · exact (decoder_follows installedApp).mem_of_decodable (readInstalledApp_decodable h)
  · exact (decoder_follows instance_).mem_of_decodable (readInstance_decodable h)
  · exact (decoder_follows installationInfo).mem_of_decodable (readInstallationInfo_decodable h)
  · exact (decoder_follows metadataEntry).mem_of_decodable (readMetadataEntry_decodable h)
  · exact (decoder_follows flatpakRemote).mem_of_decodable (readFlatpakRemote_decodable h)
  · exact (decoder_follows transactionProgress).mem_of_decodable
      (readTransactionProgress_decodes h).decodable
  · exact (decoder_follows remoteMetadata).mem_of_decodable (readRemoteMetadata_decodable h)

theorem nil_not_mem_announced (K : ℤ → Language UInt8) : [] ∉ announced K := by
  rintro ⟨head, body, hnil, hhead, -⟩
  rw [(List.append_eq_nil_iff.mp hnil.symm).1] at hhead
  cases hhead

theorem nil_not_mem_mul {K K' : Language UInt8} (h : [] ∉ K) : [] ∉ K * K' := by
  intro hnil
  obtain ⟨u, hu, v, -, heq⟩ := Language.mem_mul.mp hnil
  rw [(List.append_eq_nil_iff.mp heq).1] at hu
  exact h hu

/-- Every message begins with a number of eight bytes. -/
theorem nil_not_mem_payload (m : Message) : [] ∉ m.payload := by
  have htext : [] ∉ text := nil_not_mem_announced characters
  cases m with
  | installedApp => exact nil_not_mem_mul (nil_not_mem_mul htext)
  | remoteMetadata => exact nil_not_mem_announced fun count => entry ^ count.toNat
  | flatpakRef | instance_ | installationInfo | metadataEntry | flatpakRemote
  | transactionProgress => exact nil_not_mem_mul htext

end Message

/-! ### What is behind a list -/

/-- The elements of a list. -/
def Uint8List.contents (data : Uint8List) : List UInt8 :=
  (data.buffer.drop data.offsetInBytes).take data.length

theorem Uint8List.asByteData_eq (data : Uint8List) :
    ∃ behind, data.asByteData = data.contents ++ behind :=
  ⟨(data.buffer.drop data.offsetInBytes).drop data.length, (List.take_append_drop _ _).symm⟩

section

variable {α : Type} {d : Decoder α} {K : Language UInt8} {bytes behind : List UInt8} {offset : ℕ}

/-- The word at the offset is what is decoded. -/
theorem Decodes.at {w : List UInt8} {a : α} (h : Decodes d w a) (hne : w ≠ [])
    (hw : w <+: bytes.drop offset) :
    d ⟨bytes, offset⟩ = some (a, ⟨bytes, offset + w.length⟩) := by
  obtain ⟨rest, hrest⟩ := hw
  have hle : offset ≤ bytes.length := by
    by_contra hgt
    rw [List.drop_of_length_le (by omega)] at hrest
    exact hne (List.append_eq_nil_iff.mp hrest).1
  have hdecode := h (bytes.take offset) rest
  rwa [hrest, List.take_append_drop, List.length_take, Nat.min_eq_left hle] at hdecode

/-- **What is behind a list** makes no difference, where no word reaches into it. -/
theorem Follows.append_eq (hd : Follows d K) (hK : [] ∉ K)
    (hinside : ∀ w ∈ K, w <+: (bytes ++ behind).drop offset → w <+: bytes.drop offset) :
    (d ⟨bytes ++ behind, offset⟩).map Prod.fst = (d ⟨bytes, offset⟩).map Prod.fst := by
  have hwords : ∀ w ∈ K, w <+: bytes.drop offset → ∀ a, Decodes d w a →
      (d ⟨bytes, offset⟩).map Prod.fst = some a ∧
        (d ⟨bytes ++ behind, offset⟩).map Prod.fst = some a := by
    intro w hw hbegins a ha
    have hne : w ≠ [] := fun h => hK (h ▸ hw)
    have hlonger : w <+: (bytes ++ behind).drop offset := by
      rw [List.drop_append]
      exact hbegins.trans (List.prefix_append _ _)
    exact ⟨congrArg (Option.map Prod.fst) (ha.at hne hbegins),
      congrArg (Option.map Prod.fst) (ha.at hne hlonger)⟩
  cases hlong : d ⟨bytes ++ behind, offset⟩ with
  | some result =>
    obtain ⟨w, hw, hbegins, -⟩ := hd.only hlong
    obtain ⟨a, ha⟩ := hd.takes w hw
    obtain ⟨hshort, hsame⟩ := hwords w hw (hinside w hw hbegins) a ha
    rw [hshort, ← hsame, hlong]
  | none =>
    cases hshort : d ⟨bytes, offset⟩ with
    | none => rfl
    | some result =>
      obtain ⟨w, hw, hbegins, -⟩ := hd.only hshort
      obtain ⟨a, ha⟩ := hd.takes w hw
      have hsame := (hwords w hw hbegins a ha).2
      rw [hlong] at hsame
      cases hsame

end

namespace Message

/-- The list is the beginning of a longer message, whose payload is at the offset. -/
def Truncated (m : Message) (offset : ℤ) (bytes : List UInt8) : Prop :=
  ∃ front w, (front.length : ℤ) = offset ∧ w ∈ m.payload ∧ bytes <+: front ++ w ∧
    bytes ≠ front ++ w

/-- The decoder sees nothing but the list it is given. -/
structure Sealed (m : Message) (offset : ℤ) (bytes : List UInt8) : Prop where
  same : ∀ data data' : Uint8List, data.contents = bytes → data'.contents = bytes →
    m.decode data offset = m.decode data' offset
  throws : m.Truncated offset bytes →
    ∀ data : Uint8List, data.contents = bytes → m.decode data offset = none

/-- A word that reaches behind a list makes it a truncated message. -/
theorem inside_of_not_truncated {m : Message} {offset : ℕ} {bytes behind w : List UInt8}
    (h : ¬ m.Truncated offset bytes) (hw : w ∈ m.payload)
    (hbegins : w <+: (bytes ++ behind).drop offset) : w <+: bytes.drop offset := by
  rcases le_or_gt offset bytes.length with hle | hgt
  · have hfront : ((bytes.take offset).length : ℤ) = offset := by
      rw [List.length_take, Nat.min_eq_left hle]
    rw [List.drop_append_of_le_length hle] at hbegins
    rcases List.prefix_or_prefix_of_prefix hbegins (List.prefix_append _ _) with hin | hout
    · exact hin
    · by_contra hnot
      refine h ⟨bytes.take offset, w, hfront, hw, ?_, fun hsame => hnot ?_⟩
      · nth_rewrite 1 [← List.take_append_drop offset bytes]
        exact (List.prefix_append_right_inj _).mpr hout
      · have hrest := hsame.symm.trans (List.take_append_drop offset bytes).symm
        rw [List.append_cancel_left hrest]
  · -- the list ends before the offset
    have hne : w ≠ [] := fun hnil => nil_not_mem_payload m (hnil ▸ hw)
    have hlonger : offset < (bytes ++ behind).length := by
      by_contra hshort
      rw [List.drop_of_length_le (by omega)] at hbegins
      exact hne (List.prefix_nil.mp hbegins)
    have hlength : ((bytes ++ behind).take offset).length = offset := by
      rw [List.length_take, Nat.min_eq_left hlonger.le]
    refine absurd ⟨(bytes ++ behind).take offset, w, congrArg _ hlength, hw, ?_, fun hsame => ?_⟩ h
    · refine List.IsPrefix.trans ?_ (List.prefix_append _ w)
      rw [List.take_append, List.take_of_length_le hgt.le]
      exact List.prefix_append bytes _
    · have hboth := congrArg List.length hsame
      rw [List.length_append, hlength] at hboth
      omega

/-- The list behind which the rest of a message lies. -/
def view (bytes rest : List UInt8) : Uint8List :=
  ⟨bytes ++ rest, 0, bytes.length, by simp⟩

theorem view_contents (bytes rest : List UInt8) : (view bytes rest).contents = bytes := by
  simp [view, Uint8List.contents]

/-- With the rest of the message behind it, a truncated one decodes. -/
theorem decode_view {m : Message} {front w : List UInt8} (hw : w ∈ m.payload)
    {bytes rest : List UInt8} (hrest : bytes ++ rest = front ++ w) :
    (m.decode (view bytes rest) front.length).isSome := by
  obtain ⟨a, ha⟩ := (decoder_follows m).takes w hw
  have hdecode := ha front []
  rw [List.append_nil, ← hrest] at hdecode
  show (m.decodeFrom _ _).isSome
  rw [decodeFrom_eq, GlazeCodec.decode, view, Uint8List.asByteData, List.drop_zero, hdecode]
  rfl

/-- **When a decoder sees nothing but the list it is given**: exactly if that is not the
beginning of a longer message. -/
theorem sealed_iff (m : Message) (offset : ℤ) (bytes : List UInt8) :
    m.Sealed offset bytes ↔ ¬ m.Truncated offset bytes := by
  constructor
  · rintro h htruncated
    obtain ⟨front, w, rfl, hw, ⟨rest, hrest⟩, -⟩ := id htruncated
    have hdecodes := decode_view hw hrest
    rw [h.throws htruncated _ (view_contents bytes rest)] at hdecodes
    cases hdecodes
  · intro h
    refine ⟨?_, fun htruncated => absurd htruncated h⟩
    suffices hown : ∀ data : Uint8List, data.contents = bytes →
        m.decode data offset = m.decode (.ofList bytes) offset from
      fun data data' hdata hdata' => (hown data hdata).trans (hown data' hdata').symm
    rintro data rfl
    cases offset with
    | negSucc n => rfl
    | ofNat offset =>
      obtain ⟨behind, hbehind⟩ := data.asByteData_eq
      show m.decodeFrom _ _ = m.decodeFrom _ _
      rw [decodeFrom_eq, decodeFrom_eq, GlazeCodec.decode, GlazeCodec.decode, hbehind,
        Uint8List.asByteData_ofList]
      exact (decoder_follows m).append_eq (nil_not_mem_payload m) fun w =>
        inside_of_not_truncated h

/-- **The discriminator alone decodes**, if three empty strings lie behind it in the
buffer. -/
theorem decode_discriminator :
    (metadataEntry.decode (view [0x01] (List.replicate 24 0)) 1).isSome ∧
      metadataEntry.decode (.ofList [0x01]) 1 = none ∧
      ¬ metadataEntry.Sealed 1 [0x01] := by
  have hview : (metadataEntry.decode (view [0x01] (List.replicate 24 0)) 1).isSome := by
    decide +kernel
  have hown : metadataEntry.decode (.ofList [0x01]) 1 = none := rfl
  refine ⟨hview, hown, fun h => ?_⟩
  rw [h.same _ (.ofList [0x01]) (view_contents _ _) rfl, hown] at hview
  cases hview

end Message

end Dart
