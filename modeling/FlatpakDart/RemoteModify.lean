/-
What `modify` leaves in a remote (`lib/src/remote_manager.dart`,
`lib/src/ffi/codec.dart`, `native/src/user_remote_bridge.cpp`).

The thirteen fields of a `FlatpakRemoteConfig` cross the wire by position, null as an
empty string or -1, and `apply_config` takes these for "leave unchanged".

* `modify_applies` — the buffer decodes to its end, a null field leaves its property as
  it was, and each value that is not taken for null arrives in its own property and in
  no other;
* `holds_iff` — every non-null field holds after a modify that succeeded, exactly if none
  of them is taken for null, cut at a NUL, or not sent, or the property had the value
  already.
-/
import FlatpakDart.RemoteManager

open Glz Native Libflatpak RemoteBridge Dart RemoteManager

/-! ### Strings on their way -/

theorem CString.ofString_bytes {s : String} (hnul : 0 ∉ Text.utf8Encode s)
    (hfits : (Text.utf8Encode s).length < 2 ^ 63) :
    (CString.ofString s).bytes = Text.utf8Encode s := by
  have hall : (Text.utf8Encode s).takeWhile (· ≠ 0) = Text.utf8Encode s :=
    List.takeWhile_eq_self_iff.mpr fun b hb => by
      simpa using fun h : b = 0 => hnul (h ▸ hb)
  rw [CString.ofString, CString.ofBytes]
  show ((Text.utf8Encode s).takeWhile (· ≠ 0)).take (2 ^ 63 - 1) = _
  rw [hall, List.take_of_length_le (Nat.le_sub_one_of_lt hfits)]

theorem Text.utf8Encode_eq_nil {s : String} : Text.utf8Encode s = [] ↔ s = "" := by
  constructor
  · intro h
    refine String.toList_eq_nil_iff.mp (List.eq_nil_iff_forall_not_mem.mpr fun c hc => ?_)
    have hempty := congrArg List.length (List.flatMap_eq_nil_iff.mp h c hc)
    rw [String.length_utf8EncodeChar] at hempty
    exact (Char.utf8Size_pos c).ne' hempty
  · rintro rfl
    rfl

namespace RemoteModify

/-! ### The config on the wire -/

/-- The string fields that have a property of their own. -/
def strings (c : FlatpakRemoteConfig) : List (Option String) :=
  [c.url, c.title, c.comment, c.homepage, c.defaultBranch, c.collectionId, c.filter]

/-- The strings and the key are no larger than an object can be. -/
structure Fits (c : FlatpakRemoteConfig) : Prop where
  strings : ∀ field ∈ strings c, ∀ s ∈ field, (Text.utf8Encode s).length < 2 ^ 63
  gpgKeyData : ∀ key ∈ c.gpgKeyData, key.length < 2 ^ 63

/-- `?? ''`, as a C++ string. -/
def text (field : Option String)
    (h : ∀ s ∈ field, (Text.utf8Encode s).length < 2 ^ 63) : CppString :=
  ⟨Text.utf8Encode (field.getD ""), by
    cases field with
    | none => exact Nat.two_pow_pos 63
    | some s => exact h s rfl⟩

/-- The bytes of a key. -/
def keyData (field : Option (List UInt8)) (h : ∀ key ∈ field, key.length < 2 ^ 63) :
    CppVector (BitVec 8) :=
  ⟨(field.getD []).map UInt8.toBitVec, by
    rw [List.length_map]
    cases field with
    | none => exact Nat.two_pow_pos 63
    | some key => exact h key rfl⟩

/-- The `RemoteConfig` the buffer holds. -/
def configOf (c : FlatpakRemoteConfig) (h : Fits c) : RemoteConfig where
  url := text c.url (h.strings _ (by simp [strings]))
  title := text c.title (h.strings _ (by simp [strings]))
  comment := text c.comment (h.strings _ (by simp [strings]))
  homepage := text c.homepage (h.strings _ (by simp [strings]))
  defaultBranch := text c.defaultBranch (h.strings _ (by simp [strings]))
  gpgKeyData := keyData c.gpgKeyData h.gpgKeyData
  subset := ⟨Text.utf8Encode ((c.subset.map RemoteSubset.apiValue).getD ""), by
    rcases c.subset with _ | _ | _ | _ | _ <;> decide⟩
  collectionId := text c.collectionId (h.strings _ (by simp [strings]))
  filter := text c.filter (h.strings _ (by simp [strings]))
  priority := .ofBitVec (.ofInt 32 (c.priority.getD (-1)))
  gpgVerify := .ofBitVec (.ofInt 8 (GlazeCodec.flagValue c.gpgVerify))
  disabled := .ofBitVec (.ofInt 8 (GlazeCodec.flagValue c.disabled))
  noDeps := .ofBitVec (.ofInt 8 (GlazeCodec.flagValue c.noDeps))

theorem writeScalar_u8 (b : UInt8) : Writer.writeScalar .u8 b.toBitVec = [b] := by
  show [UInt8.ofNat b.toNat] = [b]
  rw [UInt8.ofNat_toNat]

/-- A vector of bytes is written as the bytes. -/
theorem writeVector_u8 (field : Option (List UInt8)) (h : ∀ key ∈ field, key.length < 2 ^ 63) :
    Writer.writeVector (Writer.writeScalar .u8) (keyData field h) =
      BinaryWriter.writeByteVector (field.getD []) := by
  set key := field.getD [] with hkey
  have hbytes : (key.flatMap fun b => Writer.writeScalar .u8 b.toBitVec) = key := by
    simp only [writeScalar_u8, List.flatMap_singleton']
  have hsize : (key.map UInt8.toBitVec).length = key.length := List.length_map _
  have hmap : (key.map UInt8.toBitVec).flatMap (Writer.writeScalar .u8) = key :=
    (List.flatMap_map _ _ _).trans hbytes
  exact congrArg₂ (fun n bs => LittleEndian.bytes 8 n ++ bs) hsize hmap

/-- What the Dart encoder writes is what the C++ writer would. -/
theorem encodeRemoteConfig_eq (c : FlatpakRemoteConfig) (h : Fits c) :
    GlazeCodec.encodeRemoteConfig c = writeBinary (configOf c h) := by
  have hkey := writeVector_u8 c.gpgKeyData h.gpgKeyData
  rw [GlazeCodec.encodeRemoteConfig, ← hkey]
  rfl

/-- The buffer decodes to its end. -/
theorem readValue_encode (c : FlatpakRemoteConfig) (h : Fits c) :
    readValue RemoteConfig (GlazeCodec.encodeRemoteConfig c) = some (configOf c h, []) := by
  have hread := (readValue_reads (configOf c h)).exact []
  rwa [List.append_nil, ← encodeRemoteConfig_eq] at hread

theorem decodeConfig_encode (c : FlatpakRemoteConfig) (h : Fits c) :
    decodeConfig (GlazeCodec.encodeRemoteConfig c) = configOf c h := by
  have hnonempty : GlazeCodec.encodeRemoteConfig c ≠ [] := fun hnil => by
    simpa [GlazeCodec.encodeRemoteConfig, BinaryWriter.writeString, BinaryWriter.writeByteVector,
      LittleEndian.bytes] using congrArg List.length hnil
  rw [decodeConfig, if_pos hnonempty, readBinary, readValue_encode c h]

/-! ### What is applied -/

/-- A string property after a modify. -/
def stringOr (field : Option String) (old : Option CString) : Option CString :=
  match field with
  | some s => if s = "" then old else some (.ofString s)
  | none => old

/-- The key after a modify. -/
def keyOr (field old : Option (List UInt8)) : Option (List UInt8) :=
  match field with
  | some key => if key = [] then old else some key
  | none => old

/-- A priority as `setInt32` stores it. -/
def int32 (p : ℤ) : Int32 := .ofBitVec (.ofInt 32 p)

/-- The priority after a modify. -/
def prioOr (field : Option ℤ) (old : Option Int32) : Option Int32 :=
  match field with
  | some p => if 0 ≤ int32 p then some (int32 p) else old
  | none => old

/-- The remote after a modify. -/
def modified (R : Remote) (c : FlatpakRemoteConfig) : Remote :=
  { R with
    url := stringOr c.url R.url
    title := stringOr c.title R.title
    comment := stringOr c.comment R.comment
    homepage := stringOr c.homepage R.homepage
    defaultBranch := stringOr c.defaultBranch R.defaultBranch
    collectionId := stringOr c.collectionId R.collectionId
    filter := stringOr c.filter R.filter
    gpgKey := keyOr c.gpgKeyData R.gpgKey
    gpgVerify := c.gpgVerify.or R.gpgVerify
    disabled := c.disabled.or R.disabled
    nodeps := c.noDeps.or R.nodeps
    prio := prioOr c.priority R.prio }

/-- A setter changes one property. -/
theorem setIf_eq {α : Type} (set : α → Remote → Remote) (get : Remote → α)
    (hget : ∀ r, set (get r) r = r) (cond : Prop) [Decidable cond] (v : α) (r : Remote) :
    setIf cond (set v) r = set (if cond then v else get r) r := by
  rw [setIf]
  split
  · rfl
  · exact (hget r).symm

theorem if_text (field : Option String) (h : ∀ s ∈ field, (Text.utf8Encode s).length < 2 ^ 63)
    (old : Option CString) :
    (if (text field h).val ≠ [] then some (text field h).cStr else old) = stringOr field old := by
  cases field with
  | none => rfl
  | some s =>
    by_cases hs : s = ""
    · subst hs
      rfl
    · rw [stringOr, if_neg hs]
      have hset : (text (some s) h).val ≠ [] := mt Text.utf8Encode_eq_nil.mp hs
      exact if_pos hset

theorem if_key (field : Option (List UInt8)) (h : ∀ key ∈ field, key.length < 2 ^ 63)
    (old : Option (List UInt8)) :
    (if (keyData field h).val ≠ [] then some ((keyData field h).val.map UInt8.ofBitVec) else old) =
      keyOr field old := by
  cases field with
  | none => rfl
  | some key =>
    by_cases hkey : key = []
    · subst hkey
      rfl
    · rw [keyOr, if_neg hkey]
      have hset : (keyData (some key) h).val ≠ [] := mt List.map_eq_nil_iff.mp hkey
      have hbytes : (keyData (some key) h).val.map UInt8.ofBitVec = key :=
        (List.map_map ..).trans (List.map_id key)
      rw [if_pos hset, hbytes]

theorem if_flag (field old : Option Bool) :
    (if 0 ≤ Int8.ofBitVec (.ofInt 8 (GlazeCodec.flagValue field)) then
      some (Int8.ofBitVec (.ofInt 8 (GlazeCodec.flagValue field)) != 0) else old) =
        field.or old := by
  rcases field with _ | _ | _ <;> rfl

theorem if_prio (field : Option ℤ) (old : Option Int32) :
    (if 0 ≤ int32 (field.getD (-1)) then some (int32 (field.getD (-1))) else old) =
      prioOr field old := by
  cases field with
  | none => rfl
  | some p => rfl

/-- What `apply_config` makes of the buffer. -/
theorem applyConfig_configOf (R : Remote) (c : FlatpakRemoteConfig) (h : Fits c) :
    applyConfig R (configOf c h) = modified R c := by
  unfold applyConfig
  rw [setIf_eq (fun v r => { r with url := v }) Remote.url fun _ => rfl,
    setIf_eq (fun v r => { r with title := v }) Remote.title fun _ => rfl,
    setIf_eq (fun v r => { r with comment := v }) Remote.comment fun _ => rfl,
    setIf_eq (fun v r => { r with homepage := v }) Remote.homepage fun _ => rfl,
    setIf_eq (fun v r => { r with defaultBranch := v }) Remote.defaultBranch fun _ => rfl,
    setIf_eq (fun v r => { r with collectionId := v }) Remote.collectionId fun _ => rfl,
    setIf_eq (fun v r => { r with filter := v }) Remote.filter fun _ => rfl,
    setIf_eq (fun v r => { r with gpgKey := v }) Remote.gpgKey fun _ => rfl,
    setIf_eq (fun v r => { r with gpgVerify := v }) Remote.gpgVerify fun _ => rfl,
    setIf_eq (fun v r => { r with disabled := v }) Remote.disabled fun _ => rfl,
    setIf_eq (fun v r => { r with nodeps := v }) Remote.nodeps fun _ => rfl,
    setIf_eq (fun v r => { r with prio := v }) Remote.prio fun _ => rfl]
  have hstring : ∀ (field : Option String) (hfield : field ∈ strings c) (old : Option CString),
      (if (text field (h.strings field hfield)).val ≠ [] then
        some (text field (h.strings field hfield)).cStr else old) = stringOr field old :=
    fun field hfield old => if_text field (h.strings field hfield) old
  exact (Remote.mk.injEq ..).mpr ⟨rfl, hstring c.url (by simp [strings]) _,
    hstring c.title (by simp [strings]) _, hstring c.comment (by simp [strings]) _, rfl,
    hstring c.homepage (by simp [strings]) _, hstring c.defaultBranch (by simp [strings]) _,
    hstring c.collectionId (by simp [strings]) _, hstring c.filter (by simp [strings]) _, rfl,
    if_key c.gpgKeyData h.gpgKeyData _, if_flag c.gpgVerify _, if_flag c.disabled _,
    if_flag c.noDeps _, if_prio c.priority _, rfl⟩

/-! ### The call -/

variable {δ : Type}

/-- The remote of a name in an installation. -/
def remoteAt (w : World δ) (d : δ) (name : String) : Option Remote :=
  (w d).find? (·.name = .ofString name)

theorem find?_replace {rs : Remotes} {R R' : Remote} {name : CString} (hR' : R'.name = name)
    (h : rs.find? (·.name = name) = some R) :
    (rs.map fun x => if x.name = name then R' else x).find? (·.name = name) = some R' := by
  induction rs with
  | nil => simp at h
  | cons x rs ih =>
    by_cases hx : x.name = name
    · simp [hx, hR']
    · rw [List.map_cons, if_neg hx, List.find?_cons_of_neg (by simpa using hx)]
      exact ih (by simpa [hx] using h)

theorem remoteAt_of_get {o : Outcome} {w : World δ} {d : δ} {name : String} {R : Remote}
    (h : getRemoteByName o (w d) (.ofString name) = .ok R) : remoteAt w d name = some R := by
  rw [getRemoteByName] at h
  split at h
  · exact absurd h (by simp)
  · split at h
    · exact absurd h (by simp)
    · next hfind => exact hfind.trans (congrArg some (Except.ok.inj h))

/-- A modify that completes has replaced the remote by the modified one. -/
theorem modify_ok [DecidableEq δ] {m : FlatpakRemoteManager} {host : Host δ} {name : String}
    {c : FlatpakRemoteConfig} {env : Environment} {w w' : World δ} {frames : List (List UInt8)}
    (hfits : Fits c) (h : m.modify host name c env w = some (w', frames))
    (hok : listenForResult frames = some (.ok ())) :
    ∃ R, remoteAt w (m.writeDir host) name = some R ∧
      remoteAt w' (m.writeDir host) name = some (modified R c) := by
  obtain ⟨b, hb, hw⟩ := Option.map_eq_some_iff.mp h
  rw [← FlatpakRemoteManager.installation_of_remoteCreate hb]
  rw [flatpakSystemRemoteModify, ite_self] at hw
  simp only [flatpakUserRemoteModify, decodeConfig_encode c hfits, applyConfig_configOf] at hw
  split at hw
  · obtain ⟨-, rfl⟩ := Prod.mk.inj hw
    exact absurd hok (listenForResult_error _)
  · next R hget =>
    have hR := remoteAt_of_get hget
    have hname : R.name = .ofString name := by simpa using List.find?_some hR
    have hname : (modified R c).name = .ofString name := hname
    have hstored := finish_ok hw hok
    rw [modifyRemote, hname] at hstored
    split at hstored
    · exact absurd hstored (by simp)
    · refine ⟨R, hR, ?_⟩
      rw [remoteAt, ← Except.ok.inj hstored]
      exact find?_replace hname hR

/-! ### A modify of the only remote -/

/-- A host with one installation. -/
def oneHost : Host Unit := ⟨(), (), fun _ => ()⟩

theorem modify_only (name : String) {c : FlatpakRemoteConfig} (R : Remote) (hfits : Fits c)
    (hname : R.name = .ofString name) :
    FlatpakClient.user.remotes.modify oneHost name c smooth (fun _ => [R]) =
      some (Function.update (fun _ => [R]) () [modified R c], [postOk]) := by
  have hget : getRemoteByName smooth.get [R] (.ofString name) = .ok R := by
    simp [getRemoteByName, smooth, hname]
  have hmodify : modifyRemote smooth.call [R] (modified R c) = .ok [modified R c] := by
    simp [modifyRemote, smooth, modified]
  have hcreate : FlatpakClient.user.remotes.remoteCreate oneHost smooth = some ⟨()⟩ := rfl
  rw [FlatpakRemoteManager.modify, hcreate]
  simp only [flatpakSystemRemoteModify, ite_self, flatpakUserRemoteModify,
    decodeConfig_encode c hfits, applyConfig_configOf, Option.map_some, hget, hmodify]
  rfl

/-- A remote with a filter. -/
def filtered : Remote :=
  { name := .ofString "origin"
    url := some (.ofString "https://dl.flathub.org/repo/")
    filter := some (.ofString "/etc/apps.filter") }

/-! ### Each value in its own property -/

/-- A null string changes nothing, nor does an empty one; any other arrives as it is. -/
def Takes (field : Option String) (old new : Option CString) : Prop :=
  (field.getD "" = "" → new = old) ∧
    ∀ s, field = some s → s ≠ "" → new.map CString.bytes = some (Text.utf8Encode s)

/-- What a modify with `c` makes of a remote `R`; it says of every property what it is. -/
structure Applied (c : FlatpakRemoteConfig) (R R' : Remote) : Prop where
  url : Takes c.url R.url R'.url
  title : Takes c.title R.title R'.title
  comment : Takes c.comment R.comment R'.comment
  homepage : Takes c.homepage R.homepage R'.homepage
  defaultBranch : Takes c.defaultBranch R.defaultBranch R'.defaultBranch
  collectionId : Takes c.collectionId R.collectionId R'.collectionId
  filter : Takes c.filter R.filter R'.filter
  gpgKey : (c.gpgKeyData.getD [] = [] → R'.gpgKey = R.gpgKey) ∧
    ∀ key, c.gpgKeyData = some key → key ≠ [] → R'.gpgKey = some key
  gpgVerify : R'.gpgVerify = c.gpgVerify.or R.gpgVerify
  disabled : R'.disabled = c.disabled.or R.disabled
  nodeps : R'.nodeps = c.noDeps.or R.nodeps
  prio : ((∀ p, c.priority = some p → p < 0) → R'.prio = R.prio) ∧
    ∀ p, c.priority = some p → 0 ≤ p → R'.prio.map Int32.toInt = some p
  /-- no field is for these -/
  others : R'.name = R.name ∧ R'.description = R.description ∧ R'.subset = R.subset ∧
    R'.remoteType = R.remoteType

/-- The strings hold no NUL. -/
def NulFree (c : FlatpakRemoteConfig) : Prop :=
  ∀ field ∈ strings c, ∀ s ∈ field, 0 ∉ Text.utf8Encode s

theorem stringOr_takes {field : Option String} (old : Option CString)
    (hfits : ∀ s ∈ field, (Text.utf8Encode s).length < 2 ^ 63)
    (hnul : ∀ s ∈ field, 0 ∉ Text.utf8Encode s) : Takes field old (stringOr field old) := by
  constructor
  · intro hempty
    cases field with
    | none => rfl
    | some s => exact if_pos hempty
  · rintro s rfl hs
    rw [stringOr, if_neg hs, Option.map_some, CString.ofString_bytes (hnul s rfl) (hfits s rfl)]

theorem toInt_int32 {p : ℤ} (hp : -2 ^ 31 ≤ p ∧ p < 2 ^ 31) : (int32 p).toInt = p := by
  show (BitVec.ofInt 32 p).toInt = p
  rw [BitVec.toInt_ofInt]
  exact Int.bmod_eq_of_le (by omega) (by omega)

theorem modified_applied {c : FlatpakRemoteConfig} (hfits : Fits c) (hnul : NulFree c)
    (hprio : ∀ p ∈ c.priority, -2 ^ 31 ≤ p ∧ p < 2 ^ 31) (R : Remote) :
    Applied c R (modified R c) := by
  have hstring : ∀ field ∈ strings c, ∀ old, Takes field old (stringOr field old) :=
    fun field hfield old => stringOr_takes old (hfits.strings field hfield) (hnul field hfield)
  constructor
  case url => exact hstring _ (by simp [strings]) _
  case title => exact hstring _ (by simp [strings]) _
  case comment => exact hstring _ (by simp [strings]) _
  case homepage => exact hstring _ (by simp [strings]) _
  case defaultBranch => exact hstring _ (by simp [strings]) _
  case collectionId => exact hstring _ (by simp [strings]) _
  case filter => exact hstring _ (by simp [strings]) _
  case gpgKey =>
    refine ⟨fun hempty => ?_, fun key hkey hne => ?_⟩
    · show keyOr c.gpgKeyData R.gpgKey = R.gpgKey
      cases hkey : c.gpgKeyData with
      | none => rfl
      | some key => exact if_pos (by simpa [hkey] using hempty)
    · rw [modified, hkey]
      exact if_neg hne
  case gpgVerify => rfl
  case disabled => rfl
  case nodeps => rfl
  case prio =>
    have hset {p : ℤ} (hp : c.priority = some p) : (0 : Int32) ≤ int32 p ↔ 0 ≤ p := by
      rw [Int32.le_iff_toInt_le, toInt_int32 (hprio p hp)]
      rfl
    refine ⟨fun hnegative => ?_, fun p hp hpos => ?_⟩
    · show prioOr c.priority R.prio = R.prio
      cases hp : c.priority with
      | none => rfl
      | some p => exact if_neg ((hset hp).not.mpr (Int.not_le.mpr (hnegative p hp)))
    · show (prioOr c.priority R.prio).map Int32.toInt = some p
      rw [hp, prioOr, if_pos ((hset hp).mpr hpos), Option.map_some, toInt_int32 (hprio p hp)]
  case others => exact ⟨rfl, rfl, rfl, rfl⟩

/-- **Each field in its own property**: for strings without a NUL and a priority of 32
bits, the buffer of a modify is decoded to its end, and `apply_config` sets what is set in
the config and nothing else. -/
theorem modify_applies [DecidableEq δ] {c : FlatpakRemoteConfig} (hfits : Fits c)
    (hnul : NulFree c) (hprio : ∀ p ∈ c.priority, -2 ^ 31 ≤ p ∧ p < 2 ^ 31) :
    (∃ cfg, readValue RemoteConfig (GlazeCodec.encodeRemoteConfig c) = some (cfg, []) ∧
      decodeConfig (GlazeCodec.encodeRemoteConfig c) = cfg ∧
      ∀ R, Applied c R (applyConfig R cfg)) ∧
    ∀ (m : FlatpakRemoteManager) (host : Host δ) (name : String) (env : Environment)
      (w w' : World δ) (frames : List (List UInt8)),
      m.modify host name c env w = some (w', frames) → listenForResult frames = some (.ok ()) →
      ∃ R R', remoteAt w (m.writeDir host) name = some R ∧
        remoteAt w' (m.writeDir host) name = some R' ∧ Applied c R R' := by
  have happlied := modified_applied hfits hnul hprio
  constructor
  · refine ⟨configOf c hfits, readValue_encode c hfits, decodeConfig_encode c hfits, fun R => ?_⟩
    rw [applyConfig_configOf]
    exact happlied R
  · intro m host name env w w' frames h hok
    obtain ⟨R, hR, hR'⟩ := modify_ok hfits h hok
    exact ⟨R, _, hR, hR', happlied R⟩

/-- A config that sets some of the fields. -/
def someSet : FlatpakRemoteConfig :=
  { title := some "Apps", gpgKeyData := some [0], priority := some 5, gpgVerify := some false }

theorem someSet_fits : Fits someSet := by
  constructor
  · simp only [strings, someSet, List.forall_mem_cons]
    refine ⟨?_, ?_, ?_, ?_, ?_, ?_, ?_, ?_⟩ <;> simp
    decide
  · simp [someSet]

theorem someSet_nulFree : NulFree someSet := by
  simp only [NulFree, strings, someSet, List.forall_mem_cons]
  refine ⟨?_, ?_, ?_, ?_, ?_, ?_, ?_, ?_⟩ <;> simp
  decide

/-- They arrive, and the rest stays. -/
theorem modify_applies_someSet : ∃ w' R',
    FlatpakClient.user.remotes.modify oneHost "origin" someSet smooth (fun _ => [filtered]) =
      some (w', [postOk]) ∧
    remoteAt w' () "origin" = some R' ∧ Applied someSet filtered R' ∧
    R'.filter = filtered.filter := by
  have hmodify := modify_only "origin" filtered someSet_fits rfl
  obtain ⟨-, happlies⟩ := modify_applies (δ := Unit) someSet_fits someSet_nulFree
    (by simp [someSet])
  obtain ⟨R, R', hR, hR', happlied⟩ := happlies _ _ _ _ _ _ _ hmodify rfl
  obtain rfl : R = filtered := (Option.some.inj hR).symm
  exact ⟨_, R', hmodify, hR', happlied, happlied.filter.1 rfl⟩

/-! ### What a modify promises -/

/-- The text of a property; one that is not set is empty. -/
def textOf (property : Option CString) : List UInt8 := (property.map CString.bytes).getD []

/-- Every non-null field holds in the remote; `readFile` is what the files hold. -/
structure Holds (readFile : String → Option (List UInt8)) (c : FlatpakRemoteConfig) (R : Remote) :
    Prop where
  url : ∀ s ∈ c.url, textOf R.url = Text.utf8Encode s
  title : ∀ s ∈ c.title, textOf R.title = Text.utf8Encode s
  comment : ∀ s ∈ c.comment, textOf R.comment = Text.utf8Encode s
  homepage : ∀ s ∈ c.homepage, textOf R.homepage = Text.utf8Encode s
  defaultBranch : ∀ s ∈ c.defaultBranch, textOf R.defaultBranch = Text.utf8Encode s
  collectionId : ∀ s ∈ c.collectionId, textOf R.collectionId = Text.utf8Encode s
  filter : ∀ s ∈ c.filter, textOf R.filter = Text.utf8Encode s
  subset : ∀ v ∈ c.subset, textOf R.subset = Text.utf8Encode v.apiValue
  gpgKeyPath : ∀ path ∈ c.gpgKeyPath, readFile path = some (R.gpgKey.getD [])
  gpgKeyData : ∀ key ∈ c.gpgKeyData, R.gpgKey.getD [] = key
  priority : ∀ p ∈ c.priority, R.getPrio.toInt = p
  gpgVerify : ∀ v ∈ c.gpgVerify, R.gpgVerify = some v
  disabled : ∀ v ∈ c.disabled, R.disabled = some v
  noDeps : ∀ v ∈ c.noDeps, R.nodeps = some v

/-- A string can be stored: it is not empty and holds no NUL, or it is empty as the
property is. -/
def Storable (s : String) (old : Option CString) : Prop :=
  if s = "" then textOf old = [] else 0 ∉ Text.utf8Encode s

/-- The fields of a config can be stored in a remote. -/
structure Applicable (readFile : String → Option (List UInt8)) (c : FlatpakRemoteConfig)
    (R : Remote) : Prop where
  url : ∀ s ∈ c.url, Storable s R.url
  title : ∀ s ∈ c.title, Storable s R.title
  comment : ∀ s ∈ c.comment, Storable s R.comment
  homepage : ∀ s ∈ c.homepage, Storable s R.homepage
  defaultBranch : ∀ s ∈ c.defaultBranch, Storable s R.defaultBranch
  collectionId : ∀ s ∈ c.collectionId, Storable s R.collectionId
  filter : ∀ s ∈ c.filter, Storable s R.filter
  /-- the remote has the subset already -/
  subset : ∀ v ∈ c.subset, textOf R.subset = Text.utf8Encode v.apiValue
  /-- the file holds the key that is given as data, or else the remote's own -/
  gpgKeyPath : ∀ path ∈ c.gpgKeyPath, readFile path = some ((keyOr c.gpgKeyData R.gpgKey).getD [])
  /-- an empty key is the remote's already -/
  gpgKeyData : ∀ key ∈ c.gpgKeyData, key = [] → R.gpgKey.getD [] = []
  /-- a priority of 31 bits, or the remote's own -/
  priority : ∀ p ∈ c.priority, 0 ≤ p ∧ p < 2 ^ 31 ∨ R.getPrio.toInt = p

theorem stringOr_holds_iff {s : String} (old : Option CString)
    (hfits : (Text.utf8Encode s).length < 2 ^ 63) :
    textOf (stringOr (some s) old) = Text.utf8Encode s ↔ Storable s old := by
  by_cases hs : s = ""
  · subst hs
    exact Iff.rfl
  · rw [stringOr, Storable, if_neg hs, if_neg hs]
    constructor
    · intro h hnul
      have hbytes : (CString.ofString s).bytes = Text.utf8Encode s := h
      exact (CString.ofString s).nulFree (hbytes ▸ hnul)
    · intro hnul
      exact CString.ofString_bytes hnul hfits

theorem keyOr_holds_iff {key : List UInt8} (old : Option (List UInt8)) :
    (keyOr (some key) old).getD [] = key ↔ (key = [] → old.getD [] = []) := by
  by_cases hkey : key = []
  · subst hkey
    simp [keyOr]
  · simp [keyOr, hkey]

theorem prioOr_holds_iff {p : ℤ} (R : Remote) :
    ((prioOr (some p) R.prio).getD 1).toInt = p ↔
      0 ≤ p ∧ p < 2 ^ 31 ∨ R.getPrio.toInt = p := by
  have hsame : -2 ^ 31 ≤ p ∧ p < 2 ^ 31 → (int32 p).toInt = p := toInt_int32
  have hown : R.getPrio.toInt = p → -2 ^ 31 ≤ p ∧ p < 2 ^ 31 := by
    rintro rfl
    exact ⟨R.getPrio.le_toInt, R.getPrio.toInt_lt⟩
  rw [prioOr]
  split
  · next hset =>
    have hpos : 0 ≤ (int32 p).toInt := Int32.le_iff_toInt_le.mp hset
    constructor
    · intro h
      rw [Option.getD_some] at h
      exact .inl ⟨h ▸ hpos, h ▸ (int32 p).toInt_lt⟩
    · rintro (⟨hle, hlt⟩ | h)
      · exact hsame ⟨by omega, hlt⟩
      · exact hsame (hown h)
  · next hunset =>
    refine ⟨.inr, ?_⟩
    rintro (⟨hle, hlt⟩ | h)
    · -- such a priority would have been set
      refine absurd (Int32.le_iff_toInt_le.mpr ?_) hunset
      rw [hsame ⟨by omega, hlt⟩]
      exact hle
    · exact h

/-- **What holds after a modify**: every non-null field, exactly if all of them can be
stored in the remote. -/
theorem holds_iff [DecidableEq δ] {m : FlatpakRemoteManager} {host : Host δ} {name : String}
    {c : FlatpakRemoteConfig} {env : Environment} {w w' : World δ} {frames : List (List UInt8)}
    (readFile : String → Option (List UInt8)) (hfits : Fits c)
    (h : m.modify host name c env w = some (w', frames))
    (hok : listenForResult frames = some (.ok ())) :
    ∃ R R', remoteAt w (m.writeDir host) name = some R ∧
      remoteAt w' (m.writeDir host) name = some R' ∧
      (Holds readFile c R' ↔ Applicable readFile c R) := by
  obtain ⟨R, hR, hR'⟩ := modify_ok hfits h hok
  refine ⟨R, _, hR, hR', ?_⟩
  have hstring : ∀ field ∈ strings c, ∀ old,
      (∀ s ∈ field, textOf (stringOr field old) = Text.utf8Encode s) ↔
        ∀ s ∈ field, Storable s old := by
    rintro (_ | s) hfield old
    · simp
    · simpa using stringOr_holds_iff old (hfits.strings _ hfield s rfl)
  have hkey : (∀ key ∈ c.gpgKeyData, (keyOr c.gpgKeyData R.gpgKey).getD [] = key) ↔
      ∀ key ∈ c.gpgKeyData, key = [] → R.gpgKey.getD [] = [] := by
    cases c.gpgKeyData with
    | none => simp
    | some key => simpa using keyOr_holds_iff R.gpgKey
  have hprio : (∀ p ∈ c.priority, ((prioOr c.priority R.prio).getD 1).toInt = p) ↔
      ∀ p ∈ c.priority, 0 ≤ p ∧ p < 2 ^ 31 ∨ R.getPrio.toInt = p := by
    cases c.priority with
    | none => simp
    | some p => simpa using prioOr_holds_iff R
  have hflag : ∀ (field old : Option Bool), ∀ v ∈ field, field.or old = some v := by
    rintro _ old v rfl
    rfl
  constructor
  · intro h
    exact ⟨(hstring _ (by simp [strings]) _).mp h.url, (hstring _ (by simp [strings]) _).mp h.title,
      (hstring _ (by simp [strings]) _).mp h.comment,
      (hstring _ (by simp [strings]) _).mp h.homepage,
      (hstring _ (by simp [strings]) _).mp h.defaultBranch,
      (hstring _ (by simp [strings]) _).mp h.collectionId,
      (hstring _ (by simp [strings]) _).mp h.filter, h.subset, h.gpgKeyPath,
      hkey.mp h.gpgKeyData, hprio.mp h.priority⟩
  · intro h
    exact ⟨(hstring _ (by simp [strings]) _).mpr h.url,
      (hstring _ (by simp [strings]) _).mpr h.title,
      (hstring _ (by simp [strings]) _).mpr h.comment,
      (hstring _ (by simp [strings]) _).mpr h.homepage,
      (hstring _ (by simp [strings]) _).mpr h.defaultBranch,
      (hstring _ (by simp [strings]) _).mpr h.collectionId,
      (hstring _ (by simp [strings]) _).mpr h.filter, h.subset, h.gpgKeyPath,
      hkey.mpr h.gpgKeyData, hprio.mpr h.priority, hflag _ _, hflag _ _, hflag _ _⟩

/-- What can be stored holds. -/
theorem holds_iff_someSet : ∃ w' R',
    FlatpakClient.user.remotes.modify oneHost "origin" someSet smooth (fun _ => [filtered]) =
      some (w', [postOk]) ∧
    remoteAt w' () "origin" = some R' ∧ Holds (fun _ => none) someSet R' := by
  have hmodify := modify_only "origin" filtered someSet_fits rfl
  obtain ⟨R, R', hR, hR', hiff⟩ := holds_iff (fun _ => none) someSet_fits hmodify rfl
  refine ⟨_, R', hmodify, hR', hiff.mpr ?_⟩
  have htitle : Storable "Apps" R.title := by
    rw [Storable, if_neg (by decide)]
    decide
  constructor <;> simp [someSet, htitle]

/-- A config whose four fields are all lost. -/
def lost : FlatpakRemoteConfig :=
  { filter := some "", subset := some .verified, gpgKeyPath := some "/tmp/key.gpg",
    priority := some (-5) }

theorem lost_fits : Fits lost := by
  constructor
  · simp only [strings, lost, List.forall_mem_cons]
    refine ⟨?_, ?_, ?_, ?_, ?_, ?_, ?_, ?_⟩ <;> simp
    decide
  · simp [lost]

/-- The modify completes, and the remote is as it was: it has its filter, no subset, no
key and the default priority. -/
theorem modify_loses_fields : ∃ w',
    FlatpakClient.user.remotes.modify oneHost "origin" lost smooth (fun _ => [filtered]) =
      some (w', [postOk]) ∧
    listenForResult [postOk] = some (.ok ()) ∧ remoteAt w' () "origin" = some filtered ∧
    ¬ Holds (fun _ => some [0]) lost filtered := by
  have hmodify := modify_only "origin" filtered lost_fits rfl
  have hsame : modified filtered lost = filtered := by decide +kernel
  refine ⟨_, hmodify, rfl, ?_, fun h => ?_⟩
  · rw [hsame]
    decide +kernel
  · have hfilter := h.filter "" rfl
    revert hfilter
    decide +kernel

end RemoteModify
