/-
The two readers of `[Context] sockets` (`lib/src/portal/permission_flow.dart`,
`native/src/app_metadata.cpp`, `native/src/installation_reader.cpp`).

GLib makes a string or a list of a value.  `metadata_requests_socket` looks through the
list, with the blanks around its entries taken off; `get_permissions` posts the string,
and `derivePermissions` splits that.

* `mem_splitOn_posted_iff`, `getStringList_eq` — both are made of the same parts, unless a
  semicolon is escaped;
* `readers_agree_iff` — the two readers agree, exactly if a part is `pulseaudio`, or none
  is it but for blanks.
-/
import FlatpakDart.PermissionStore
import FlatpakDart.ReaderOperations
import FlatpakDart.Separator
import FlatpakDart.WireText

open Glib AppMetadata InstallationReader Native Glz Dart Separator

namespace SocketReaders

/-! ### Values of a keyfile -/

/-- What `g_key_file_parse_value_as_string` reads at a time. -/
inductive Token
  | plain (b : UInt8)
  /-- an escape sequence, for this character -/
  | escaped (b : UInt8)
  /-- a backslash in front of any other character -/
  | unknown (b : UInt8)
  /-- a backslash at the end -/
  | dangling
  deriving DecidableEq

/-- `\s`, `\n`, `\t`, `\r` and `\\`. -/
def escape (c : UInt8) : Option UInt8 :=
  if c = 0x73 then some 0x20
  else if c = 0x6E then some 0x0A
  else if c = 0x74 then some 0x09
  else if c = 0x72 then some 0x0D
  else if c = 0x5C then some 0x5C
  else none

def tokens : List UInt8 → List Token
  | [] => []
  | [b] => if b = 0x5C then [.dangling] else [.plain b]
  | b :: c :: rest =>
    if b = 0x5C then ((escape c).elim (.unknown c) .escaped) :: tokens rest
    else .plain b :: tokens (c :: rest)

/-- What a token adds to a string; an unknown sequence is an error, and kept. -/
def Token.text : Token → List UInt8
  | plain b => [b]
  | escaped b => [b]
  | unknown b => [0x5C, b]
  | dangling => []

/-- What a token adds to a piece of a list; an error leaves no list. -/
def Token.item : Token → Option (List UInt8)
  | plain b => some [b]
  | escaped b => some [b]
  -- a semicolon may be escaped here
  | unknown b => if b = 0x3B then some [b] else none
  | dangling => none

/-- `g_utf8_validate`. -/
def utf8Validate (raw : List UInt8) : Bool := (String.fromUTF8? raw.toByteArray).isSome

/-- `g_key_file_get_string`, of a value. -/
def getString (raw : List UInt8) : Option (List UInt8) :=
  if utf8Validate raw then some ((tokens raw).flatMap Token.text) else none

/-- The last piece is left out if it is empty. -/
def dropEmpty (pieces : List (List UInt8)) : List (List UInt8) :=
  if pieces.getLast? = some [] then pieces.dropLast else pieces

/-- A piece, if there is no error in it. -/
def piece (part : List Token) : Option (List UInt8) := (part.mapM Token.item).map List.flatten

/-- `g_key_file_get_string_list`, of a value. -/
def getStringList (raw : List UInt8) : Option (List (List UInt8)) :=
  if utf8Validate raw then
    (((tokens raw).splitOn (Token.plain 0x3B)).mapM piece).map dropEmpty
  else none

/-- GLib can make a list of the value: a backslash stands before what it escapes only, or
before a semicolon. -/
def Listable (raw : List UInt8) : Prop := ∀ t ∈ tokens raw, t.item.isSome

/-- The parts of the string between semicolons that no backslash stands before. -/
def parts (raw : List UInt8) : List (List UInt8) :=
  ((tokens raw).splitOn (Token.plain 0x3B)).map (List.flatMap Token.text)

/-- The value that `get_permissions` posts. -/
def posted (raw : List UInt8) : List UInt8 := (getString raw).getD []

theorem escape_ne {c b : UInt8} (h : escape c = some b) : b ≠ 0x3B := by
  rw [escape] at h
  split_ifs at h <;> · obtain rfl := Option.some.inj h; decide

theorem escaped_ne {raw : List UInt8} {b : UInt8} (h : .escaped b ∈ tokens raw) : b ≠ 0x3B := by
  induction raw using tokens.induct with
  | case1 => cases h
  | case2 => simp [tokens] at h
  | case3 => simp [tokens, *] at h
  | case4 c rest ih =>
    rw [tokens, if_pos rfl] at h
    rcases List.mem_cons.mp h with hfirst | hrest
    · cases hescape : escape c with
      | none => simp [hescape] at hfirst
      | some e =>
        rw [hescape] at hfirst
        obtain rfl := Token.escaped.inj hfirst
        exact escape_ne hescape
    · exact ih hrest
  | case5 a c rest ha ih =>
    rw [tokens, if_neg ha] at h
    rcases List.mem_cons.mp h with hfirst | hrest
    · cases hfirst
    · exact ih hrest

theorem mapM_eq_some_map {α β : Type} {f : α → Option β} {g : α → β} {l : List α}
    (h : ∀ a ∈ l, f a = some (g a)) : l.mapM f = some (l.map g) := by
  induction l with
  | nil => rfl
  | cons a l ih =>
    rw [List.mapM_cons, h a List.mem_cons_self, ih fun b hb => h b (List.mem_cons_of_mem a hb)]
    rfl

/-- Where all elements are mapped, the results are those of the elements. -/
theorem mem_of_mapM {α β : Type} {f : α → Option β} {l : List α} {l' : List β}
    (h : l.mapM f = some l') :
    (∀ a ∈ l, ∃ b ∈ l', f a = some b) ∧ ∀ b ∈ l', ∃ a ∈ l, f a = some b := by
  induction l generalizing l' with
  | nil =>
    obtain rfl := Option.some.inj h
    simp
  | cons a l ih =>
    rw [List.mapM_cons] at h
    obtain ⟨b, hb, h⟩ := Option.bind_eq_some_iff.mp h
    obtain ⟨bs, hbs, h⟩ := Option.bind_eq_some_iff.mp h
    obtain rfl := Option.some.inj h
    obtain ⟨hthere, hfrom⟩ := ih hbs
    constructor
    · intro x hx
      rcases List.mem_cons.mp hx with rfl | hx
      · exact ⟨b, List.mem_cons_self, hb⟩
      · obtain ⟨y, hy, hxy⟩ := hthere x hx
        exact ⟨y, List.mem_cons_of_mem b hy, hxy⟩
    · intro y hy
      rcases List.mem_cons.mp hy with rfl | hy
      · exact ⟨a, List.mem_cons_self, hb⟩
      · obtain ⟨x, hx, hxy⟩ := hfrom y hy
        exact ⟨x, List.mem_cons_of_mem a hx, hxy⟩

/-- A semicolon within a part of the string has a backslash in front of it. -/
theorem text_guarded {raw : List UInt8} {t : Token} (ht : t ∈ tokens raw)
    (hne : t ≠ .plain 0x3B) : Guarded 0x3B 0x5C t.text := by
  cases t with
  | plain b =>
    refine .of_not_mem fun hb => hne ?_
    rw [List.mem_singleton.mp hb]
  | escaped b => exact .of_not_mem fun hb => escaped_ne ht (List.mem_singleton.mp hb).symm
  | unknown b =>
    by_cases hb : b = 0x3B
    · subst hb
      exact .escaped (by decide)
    · exact .of_not_mem (by simpa [Token.text] using Ne.symm hb)
  | dangling => exact .of_not_mem (List.not_mem_nil)

theorem parts_guarded {raw part : List UInt8} (h : part ∈ parts raw) :
    Guarded 0x3B 0x5C part := by
  obtain ⟨ts, hts, rfl⟩ := List.mem_map.mp h
  exact .flatMap fun t ht =>
    text_guarded (of_mem_splitOn hts ht).1 (of_mem_splitOn hts ht).2

/-- **The string**, split at each semicolon. -/
theorem mem_splitOn_posted_iff {raw w : List UInt8} (hvalid : utf8Validate raw = true)
    (hw : 0x3B ∉ w) (hlast : w.getLast? ≠ some 0x5C) :
    w ∈ (posted raw).splitOn 0x3B ↔ ∃ part ∈ parts raw, part = w ∨ [0x5C, 0x3B] ++ w <:+ part := by
  have hsplit : (posted raw).splitOn 0x3B = (parts raw).flatMap (List.splitOn 0x3B) := by
    rw [posted, getString, if_pos hvalid, Option.getD_some, parts, List.flatMap_map]
    exact splitOn_flatMap_eq (a := Token.plain 0x3B) rfl (tokens raw)
  rw [hsplit, List.mem_flatMap]
  exact exists_congr fun part => and_congr_right fun hpart =>
    (parts_guarded hpart).mem_splitOn_iff (by decide) hw hlast

/-- What a token adds to a piece of a list. -/
def Token.itemBytes (t : Token) : List UInt8 := t.item.getD []

/-- **The list** has the same parts, but for the backslashes before semicolons, and is
without the last one if that is empty. -/
theorem getStringList_eq {raw : List UInt8} (hvalid : utf8Validate raw = true)
    (h : Listable raw) :
    getStringList raw = some (dropEmpty
      (((tokens raw).splitOn (Token.plain 0x3B)).map (List.flatMap Token.itemBytes))) := by
  have hpieces : ((tokens raw).splitOn (Token.plain 0x3B)).mapM piece =
      some (((tokens raw).splitOn (Token.plain 0x3B)).map (List.flatMap Token.itemBytes)) := by
    refine mapM_eq_some_map fun part hpart => ?_
    have hitems : part.mapM Token.item = some (part.map Token.itemBytes) :=
      mapM_eq_some_map fun t ht => by
        obtain ⟨bs, hbs⟩ := Option.isSome_iff_exists.mp (h t (of_mem_splitOn hpart ht).1)
        rw [Token.itemBytes, hbs, Option.getD_some]
    rw [piece, hitems, Option.map_some, List.flatMap_def]
  rw [getStringList, if_pos hvalid, hpieces, Option.map_some]

/-! ### The list reader -/

def pulseaudio : CString := .lit "pulseaudio" (by decide)

def sockets : CString := ⟨Text.utf8Encode "sockets", by decide, by decide⟩

/-- `g_strstrip`, of bytes. -/
def stripped (bs : List UInt8) : List UInt8 :=
  ((bs.dropWhile isSpace).reverse.dropWhile isSpace).reverse

theorem strip_bytes (s : CString) : (strip s).bytes = stripped s.bytes := by
  have hsub : (stripped s.bytes).Sublist s.bytes := by
    have hback :=
      (List.dropWhile_sublist isSpace (l := (s.bytes.dropWhile isSpace).reverse)).reverse
    rw [List.reverse_reverse] at hback
    exact hback.trans (List.dropWhile_sublist isSpace)
  exact CString.bytes_ofBytes (fun h => s.nulFree (hsub.subset h))
    (hsub.length_le.trans_lt s.bounded)

/-- What GLib makes of the value of `sockets`. -/
structure SocketsValue (kf : KeyFile) (raw : List UInt8) : Prop where
  string : (kf.getString context sockets).map CString.bytes = getString raw
  list : (kf.getStringList context sockets).map (fun l => l.val.map CString.bytes) =
    getStringList raw

/-- The list names it, if the blanks around an entry are taken off. -/
def ListNames (raw : List UInt8) : Prop :=
  ∃ l, getStringList raw = some l ∧ ∃ entry ∈ l, stripped entry = pulseaudio.bytes

/-- An entry is `pulseaudio` but for blanks; then it is not a negated one. -/
theorem requests_iff (s : CString) :
    ((strip s).bytes.head? ≠ some 0x21 && strip s = pulseaudio) = true ↔
      stripped s.bytes = pulseaudio.bytes := by
  have hbytes : strip s = pulseaudio ↔ stripped s.bytes = pulseaudio.bytes := by
    rw [← strip_bytes]
    exact ⟨congrArg CString.bytes, fun h => (CString.mk.injEq ..).mpr h⟩
  rw [Bool.and_eq_true, decide_eq_true_eq, decide_eq_true_eq, hbytes]
  refine and_iff_right_of_imp fun h => ?_
  rw [strip_bytes, h]
  decide

theorem metadataRequestsSocket_iff {kf : KeyFile} {raw : List UInt8} (h : SocketsValue kf raw) :
    metadataRequestsSocket kf pulseaudio = true ↔ ListNames raw := by
  rw [metadataRequestsSocket, ListNames, ← h.list]
  split
  case _ hnone =>
    have hlist : kf.getStringList context sockets = none := hnone
    simp [hlist]
  case _ l hsome =>
    have hlist : kf.getStringList context sockets = some l := hsome
    simp only [hlist, List.any_eq_true, requests_iff, Option.map_some, Option.some_inj,
      exists_eq_left', List.mem_map, exists_exists_and_eq_and]

/-! ### The string reader -/

/-- The string names it. -/
def StringNames (raw : List UInt8) : Prop := pulseaudio.bytes ∈ (posted raw).splitOn 0x3B

/-- The first entry is it, behind a byte order mark. -/
def MarkedName (raw : List UInt8) : Prop :=
  ((posted raw).splitOn 0x3B).head? = some (Text.byteOrderMark ++ pulseaudio.bytes)

/-- The permissions that `pulseaudio` implies are derived. -/
def Derived (metadata : List FlatpakPermission) : Prop :=
  "microphone" ∈ PermissionFlow.derivePermissions metadata ∧
    "speakers" ∈ PermissionFlow.derivePermissions metadata

/-- What Dart takes for the value of `sockets` is the one that is posted. -/
def Passed (kf : KeyFile) (metadata : List FlatpakPermission) : Prop :=
  ∃ e, metadata.find? (fun e => e.section_ = "Context" ∧ e.key = "sockets") = some e ∧
    Text.utf8Decode (safeStr (kf.getString context sockets)).val = some e.value

open PermissionFlow

theorem mem_add {requested : List String} {p q : String} :
    p ∈ add requested q ↔ p ∈ requested ∨ p = q := by
  rw [add]
  split
  case isTrue h =>
    refine (or_iff_left_of_imp ?_).symm
    rintro rfl
    exact List.contains_iff_mem.mp h
  case isFalse => rw [List.mem_append, List.mem_singleton]

/-- No name of the session bus policy asks for it. -/
theorem mem_foldl_addPolicy {p : String} (hp : ∀ key, policyPermission key ≠ some p)
    (metadata : List FlatpakPermission) (requested : List String) :
    p ∈ metadata.foldl addPolicy requested ↔ p ∈ requested := by
  induction metadata generalizing requested with
  | nil => rfl
  | cons e metadata ih =>
    rw [List.foldl_cons, ih, addPolicy]
    split
    · rfl
    · split
      case _ q hq =>
        rw [mem_add, or_iff_left]
        rintro rfl
        exact hp _ hq
      case _ => rfl

theorem policyPermission_ne {p : String} (h : p = "microphone" ∨ p = "speakers") (key : String) :
    policyPermission key ≠ some p := by
  unfold policyPermission
  rcases h with rfl | rfl <;> split <;> simp

/-- The permissions are derived of the sockets, where there is no `devices=all`. -/
theorem derived_iff {metadata : List FlatpakPermission}
    (hdevices : "all" ∉ listValue metadata "Context" "devices") :
    Derived metadata ↔ "pulseaudio" ∈ listValue metadata "Context" "sockets" := by
  have hnone : (listValue metadata "Context" "devices").contains "all" = false := by
    simpa using hdevices
  have hboth : ["microphone", "speakers"].foldl add [] = ["microphone", "speakers"] := by decide
  rw [Derived, derivePermissions]
  simp only [hnone, Bool.false_eq_true, if_false, hboth,
    mem_foldl_addPolicy (policyPermission_ne (.inl rfl)),
    mem_foldl_addPolicy (policyPermission_ne (.inr rfl))]
  by_cases hsockets : "pulseaudio" ∈ listValue metadata "Context" "sockets"
  · simp [hsockets]
  · simp [hsockets]

theorem semicolon_not_mem {c : Char} (h : c ≠ ';') : (0x3B : UInt8) ∉ String.utf8EncodeChar c :=
  fun hmem => h (Char.toNat_inj.mp (Text.toNat_of_ascii_mem hmem (by decide)))

/-- The entries of a decoded value are those of its bytes. -/
theorem mem_listValue_iff {metadata : List FlatpakPermission} {e : FlatpakPermission}
    (h : metadata.find? (fun e => e.section_ = "Context" ∧ e.key = "sockets") = some e) :
    "pulseaudio" ∈ listValue metadata "Context" "sockets" ↔
      pulseaudio.bytes ∈ (Text.utf8Encode e.value).splitOn 0x3B := by
  have hsplit : (Text.utf8Encode e.value).splitOn 0x3B =
      (e.value.toList.splitOn ';').map (List.flatMap String.utf8EncodeChar) :=
    splitOn_flatMap (by decide) fun c _ hne => semicolon_not_mem hne
  have hname : ∀ part : List Char, String.ofList part = "pulseaudio" ↔
      part.flatMap String.utf8EncodeChar = pulseaudio.bytes := by
    intro part
    have hpart : Text.utf8Encode (String.ofList part) = part.flatMap String.utf8EncodeChar := by
      rw [Text.utf8Encode, String.toList_ofList]
    rw [← hpart]
    exact ⟨congrArg Text.utf8Encode, Text.utf8Encode_inj⟩
  rw [listValue, h, hsplit, List.mem_filter, List.mem_map, List.mem_map,
    and_iff_left (by decide)]
  simp only [hname]

/-- Without the mark only the first entry is another one. -/
theorem mem_splitOn_dropMark_iff (bs : List UInt8) :
    pulseaudio.bytes ∈ (Text.dropMark bs).splitOn 0x3B ↔
      pulseaudio.bytes ∈ bs.splitOn 0x3B ∨
        (bs.splitOn 0x3B).head? = some (Text.byteOrderMark ++ pulseaudio.bytes) := by
  by_cases hmark : Text.byteOrderMark <+: bs
  · obtain ⟨rest, rfl⟩ := hmark
    have hdrop : Text.dropMark (Text.byteOrderMark ++ rest) = rest := by
      rw [Text.dropMark, if_pos (List.prefix_append _ _)]
      rfl
    obtain ⟨first, parts, hparts⟩ := List.exists_cons_of_ne_nil (List.splitOn_ne_nil 0x3B rest)
    have hfirst : pulseaudio.bytes ≠ Text.byteOrderMark ++ first := fun h =>
      absurd (congrArg List.head? h) (by simp [Text.byteOrderMark]; decide)
    rw [hdrop, splitOn_append_of_not_mem (by decide), hparts, List.modifyHead_cons,
      List.head?_cons, Option.some_inj, List.append_cancel_left_eq, List.mem_cons, List.mem_cons,
      or_iff_right hfirst, or_comm, @eq_comm _ first]
  · have hdrop : Text.dropMark bs = bs := if_neg hmark
    rw [hdrop, or_iff_left]
    intro hhead
    exact hmark ((List.prefix_append _ _).trans (head_splitOn_prefix_of hhead))

theorem derived_iff_names {kf : KeyFile} {raw : List UInt8} {metadata : List FlatpakPermission}
    (hvalue : SocketsValue kf raw) (hpassed : Passed kf metadata)
    (hdevices : "all" ∉ listValue metadata "Context" "devices") :
    Derived metadata ↔ StringNames raw ∨ MarkedName raw := by
  obtain ⟨e, hfind, hdecode⟩ := hpassed
  have hposted : (safeStr (kf.getString context sockets)).val = posted raw := by
    rw [posted, ← hvalue.string]
    cases kf.getString context sockets <;> rfl
  rw [derived_iff hdevices, mem_listValue_iff hfind, Text.encode_of_decode hdecode, hposted]
  exact mem_splitOn_dropMark_iff (posted raw)

/-! ### Both readers -/

/-- A part is exactly it. -/
def ExactName (raw : List UInt8) : Prop := pulseaudio.bytes ∈ parts raw

/-- A part ends with it, right behind an escaped semicolon. -/
def EscapedName (raw : List UInt8) : Prop :=
  ∃ part ∈ parts raw, [0x5C, 0x3B] ++ pulseaudio.bytes <:+ part

/-- A part is it but for the blanks around it. -/
def BlankName (raw : List UInt8) : Prop := ∃ part ∈ parts raw, stripped part = pulseaudio.bytes

/-- The readers take the value alike.  If it is a list, a part is exactly `pulseaudio`, or
else one is it between blanks exactly if one has it behind an escaped semicolon, or the
first of the string behind a byte order mark; if not, there is no part of these kinds. -/
def ReadAlike (raw : List UInt8) : Prop :=
  utf8Validate raw = true →
    (Listable raw → ExactName raw ∨ (EscapedName raw ∨ MarkedName raw ↔ BlankName raw)) ∧
    (¬ Listable raw → ¬ (ExactName raw ∨ EscapedName raw ∨ MarkedName raw))

theorem stringNames_iff {raw : List UInt8} (hvalid : utf8Validate raw = true) :
    StringNames raw ↔ ExactName raw ∨ EscapedName raw := by
  rw [StringNames, mem_splitOn_posted_iff hvalid (by decide) (by decide)]
  constructor
  · rintro ⟨part, hpart, rfl | hescaped⟩
    · exact .inl hpart
    · exact .inr ⟨part, hpart, hescaped⟩
  · rintro (hexact | ⟨part, hpart, hescaped⟩)
    · exact ⟨_, hexact, .inl rfl⟩
    · exact ⟨part, hpart, .inr hescaped⟩

theorem mem_dropEmpty {pieces : List (List UInt8)} {entry : List UInt8} (hne : entry ≠ []) :
    entry ∈ dropEmpty pieces ↔ entry ∈ pieces := by
  rw [dropEmpty]
  split
  case isTrue hlast =>
    obtain ⟨front, rfl⟩ := List.getLast?_eq_some_iff.mp hlast
    rw [List.dropLast_concat, List.mem_append, List.mem_singleton, or_iff_left hne]
  case isFalse => rfl

theorem mem_stripped {b : UInt8} {bs : List UInt8} (h : b ∈ bs) (hb : isSpace b = false) :
    b ∈ stripped bs := by
  have hdrop : ∀ {l : List UInt8}, b ∈ l → b ∈ l.dropWhile isSpace := by
    intro l hl
    rw [← List.takeWhile_append_dropWhile (p := isSpace) (l := l)] at hl
    refine (List.mem_append.mp hl).resolve_left fun hfront => ?_
    rw [List.mem_takeWhile_imp hfront] at hb
    cases hb
  exact List.mem_reverse.mpr (hdrop (List.mem_reverse.mpr (hdrop h)))

/-- A piece of the list is the name between blanks, exactly if the part of the string is. -/
theorem stripped_items_iff {ts : List Token} (h : ∀ t ∈ ts, t.item.isSome) :
    stripped (ts.flatMap Token.itemBytes) = pulseaudio.bytes ↔
      stripped (ts.flatMap Token.text) = pulseaudio.bytes := by
  by_cases hsemicolon : .unknown 0x3B ∈ ts
  · -- the semicolon is still there
    have hnot : ∀ g : Token → List UInt8, 0x3B ∈ g (.unknown 0x3B) →
        stripped (ts.flatMap g) ≠ pulseaudio.bytes := by
      intro g hg hname
      have hmem := mem_stripped (List.mem_flatMap.mpr ⟨_, hsemicolon, hg⟩) (by decide)
      rw [hname] at hmem
      exact absurd hmem (by decide)
    exact iff_of_false (hnot _ (by decide)) (hnot _ (by decide))
  · have hsame : ts.flatMap Token.itemBytes = ts.flatMap Token.text := by
      refine List.flatMap_congr fun t ht => ?_
      cases t with
      | plain b => rfl
      | escaped b => rfl
      | unknown b =>
        have hb : b ≠ 0x3B := fun hb => hsemicolon (hb ▸ ht)
        have hnone := h _ ht
        rw [Token.item, if_neg hb] at hnone
        cases hnone
      | dangling => cases h _ ht
    rw [hsame]

theorem listNames_iff {raw : List UInt8} (hvalid : utf8Validate raw = true)
    (h : Listable raw) : ListNames raw ↔ BlankName raw := by
  have hne : ∀ entry, stripped entry = pulseaudio.bytes → entry ≠ [] := by
    rintro _ hstripped rfl
    exact absurd hstripped (by decide)
  rw [ListNames, getStringList_eq hvalid h, BlankName, parts]
  simp only [Option.some_inj, exists_eq_left']
  constructor
  · rintro ⟨entry, hentry, hstripped⟩
    obtain ⟨ts, hts, rfl⟩ := List.mem_map.mp ((mem_dropEmpty (hne _ hstripped)).mp hentry)
    exact ⟨_, List.mem_map_of_mem hts,
      (stripped_items_iff fun t ht => h t (of_mem_splitOn hts ht).1).mp hstripped⟩
  · rintro ⟨part, hpart, hstripped⟩
    obtain ⟨ts, hts, rfl⟩ := List.mem_map.mp hpart
    have hitems := (stripped_items_iff fun t ht => h t (of_mem_splitOn hts ht).1).mpr hstripped
    exact ⟨_, (mem_dropEmpty (hne _ hitems)).mpr (List.mem_map_of_mem hts), hitems⟩

/-- Without a list there is no name in it. -/
theorem not_listNames {raw : List UInt8} (h : ¬ (utf8Validate raw = true ∧ Listable raw)) :
    ¬ ListNames raw := by
  rintro ⟨l, hl, -⟩
  obtain ⟨hvalid, hl⟩ := Option.ite_none_right_eq_some.mp hl
  refine h ⟨hvalid, fun t ht => ?_⟩
  by_cases hne : t = .plain 0x3B
  · rw [hne]
    rfl
  · obtain ⟨ts, hts, ht⟩ := mem_splitOn_of_mem ht hne
    obtain ⟨pieces, hpieces, -⟩ := Option.map_eq_some_iff.mp hl
    obtain ⟨_, -, hpiece⟩ := (mem_of_mapM hpieces).1 ts hts
    obtain ⟨items, hitems, -⟩ := Option.map_eq_some_iff.mp hpiece
    obtain ⟨bs, -, hbs⟩ := (mem_of_mapM hitems).1 t ht
    rw [hbs]
    rfl

/-- Nothing is posted of what is not UTF-8. -/
theorem not_names_of_invalid {raw : List UInt8} (h : ¬ utf8Validate raw = true) :
    ¬ (StringNames raw ∨ MarkedName raw) := by
  have hposted : posted raw = [] := by rw [posted, getString, if_neg h, Option.getD_none]
  rw [StringNames, MarkedName, hposted]
  decide

/-- **When the two readers of the sockets agree.** -/
theorem readers_agree_iff {kf : KeyFile} {raw : List UInt8} {metadata : List FlatpakPermission}
    (hvalue : SocketsValue kf raw) (hpassed : Passed kf metadata)
    (hdevices : "all" ∉ listValue metadata "Context" "devices") :
    (Derived metadata ↔ metadataRequestsSocket kf pulseaudio = true) ↔ ReadAlike raw := by
  rw [derived_iff_names hvalue hpassed hdevices, metadataRequestsSocket_iff hvalue, ReadAlike]
  by_cases hvalid : utf8Validate raw = true
  · rw [stringNames_iff hvalid, or_assoc]
    by_cases hlist : Listable raw
    · have hexact : ExactName raw → BlankName raw := fun hname => ⟨_, hname, by decide⟩
      simp only [hvalid, hlist, listNames_iff hvalid hlist, not_true_eq_false, false_implies,
        true_implies, and_true]
      by_cases hname : ExactName raw
      · simp [hname, hexact hname]
      · simp [hname]
    · have hnone := not_listNames fun h => hlist h.2
      simp only [hvalid, hlist, hnone, not_false_eq_true, false_implies, true_implies, true_and,
        iff_false]
  · have hnone := not_listNames fun h => hvalid h.1
    exact iff_of_true (iff_of_false (not_names_of_invalid hvalid) hnone) fun h => absurd h hvalid

/-! ### What `get_permissions` posts -/

/-- What Dart decodes of the entries that are posted. -/
def received (kf : KeyFile) : Option (List FlatpakPermission) :=
  (entries kf).mapM fun entry =>
    GlazeCodec.decodeMetadataEntry (.ofList (FlatpakNc.postFramed 0x01 (writeBinary entry))) 1

/-- The decoder makes `o` of the word, wherever it lies in a message; of `none` it throws. -/
def Yields {α : Type} (d : Decoder α) (w : List UInt8) (o : Option α) : Prop :=
  ∀ front rest, d ⟨front ++ (w ++ rest), front.length⟩ =
    o.map fun a => (a, ⟨front ++ (w ++ rest), front.length + w.length⟩)

theorem Yields.bind {α β : Type} {d : Decoder α} {f : α → Decoder β} {w w' : List UInt8}
    {o : Option α} {o' : α → Option β} (hd : Yields d w o) (hf : ∀ a, Yields (f a) w' (o' a)) :
    Yields (d >>= f) (w ++ w') (o.bind o') := by
  intro front rest
  have hfirst := hd front (w' ++ rest)
  show (d _).bind (fun r => f r.1 r.2) = _
  rw [List.append_assoc, hfirst]
  cases o with
  | none => rfl
  | some a =>
    have hthen := hf a (front ++ w) rest
    rw [List.append_assoc, List.length_append] at hthen
    rw [Option.map_some, Option.bind_some, hthen, List.length_append, Nat.add_assoc]
    rfl

theorem Yields.pure {α : Type} (a : α) : Yields (pure a) [] (some a) := fun _ _ => rfl

/-- A string is decoded from its bytes. -/
theorem readString_yields (s : CppString) :
    Yields BinaryReader.readString (Writer.writeString s) (Text.utf8Decode s.val) := by
  intro front rest
  have hsize := BinaryReader.readUint64_decodes s.2 front (s.val ++ rest)
  have hview := BinaryReader.view_decodes s.val (front ++ LittleEndian.bytes 8 s.val.length) rest
  rw [List.append_assoc, List.length_append] at hview
  have hword : Writer.writeString s = LittleEndian.bytes 8 s.val.length ++ s.val := rfl
  show (BinaryReader.readUint64 _).bind (fun r => (BinaryReader.view r.1 r.2).bind fun q =>
    BinaryReader.decodeText q.1 q.2) = _
  rw [hword, List.append_assoc, hsize, Option.bind_some, hview, Option.bind_some,
    BinaryReader.decodeText, List.length_append, Nat.add_assoc]

/-- An entry is decoded field by field. -/
theorem decodeMetadataEntry_eq (entry : FpMetadataEntry) :
    GlazeCodec.decodeMetadataEntry (.ofList (FlatpakNc.postFramed 0x01 (writeBinary entry))) 1 =
      (Text.utf8Decode entry.section_.val).bind fun s =>
        (Text.utf8Decode entry.key.val).bind fun k =>
          (Text.utf8Decode entry.value.val).bind fun v => some ⟨s, k, v⟩ := by
  have hentry : Yields GlazeCodec.readMetadataEntry (writeBinary entry) _ :=
    (readString_yields entry.section_).bind fun s => (readString_yields entry.key).bind fun k =>
      (readString_yields entry.value).bind fun v => .pure (⟨s, k, v⟩ : FlatpakPermission)
  have hdecode := hentry [0x01] []
  rw [List.append_nil] at hdecode
  rw [GlazeCodec.decodeMetadataEntry, GlazeCodec.decode, Uint8List.asByteData_ofList,
    FlatpakNc.postFramed]
  refine (congrArg (Option.map Prod.fst) hdecode).trans ?_
  rw [Option.map_map]
  exact Option.map_id'

theorem mem_sectionEntries {kf : KeyFile} {sec : CString} {entry : FpMetadataEntry} :
    entry ∈ sectionEntries kf sec ↔ ∃ keys, kf.getKeys sec = some keys ∧ ∃ key ∈ keys.val,
      ⟨.ofCString sec, .ofCString key, safeStr (kf.getString sec key)⟩ = entry := by
  rw [sectionEntries]
  cases kf.getKeys sec with
  | none => simp
  | some keys => simp

theorem decode_context :
    Text.utf8Decode (CppString.ofCString context).val = some "Context" :=
  Text.utf8Decode_encode (s := "Context") (by decide)

theorem decode_sockets :
    Text.utf8Decode (CppString.ofCString sockets).val = some "sockets" :=
  Text.utf8Decode_encode (s := "sockets") (by decide)

/-- The group that Dart knows as `Context`. -/
theorem eq_context {sec : CString} (hsec : sec ∈ sections)
    (h : Text.utf8Decode sec.bytes = some "Context") : sec = context := by
  have hall : ∀ sec ∈ sections, Text.dropMark sec.bytes = Text.utf8Encode "Context" →
      sec = context := by decide
  exact hall sec hsec (Text.encode_of_decode h).symm

/-- The key that Dart knows as `sockets`. -/
theorem eq_sockets {key : CString} (hmark : key.bytes ≠ Text.byteOrderMark ++ sockets.bytes)
    (h : Text.utf8Decode key.bytes = some "sockets") : key = sockets := by
  have hdrop := Text.encode_of_decode h
  rw [Text.dropMark] at hdrop
  split at hdrop
  case isTrue hbegins =>
    obtain ⟨rest, hrest⟩ := hbegins
    refine absurd ?_ hmark
    rw [← hrest] at hdrop ⊢
    exact congrArg (Text.byteOrderMark ++ ·) hdrop.symm
  case isFalse => exact (CString.mk.injEq ..).mpr hdrop.symm

/-- **What `get_permissions` posts is what Dart takes for the value**, if no key is
`sockets` behind a byte order mark. -/
theorem passed_of_received {kf : KeyFile} {keys : Strv} {metadata : List FlatpakPermission}
    (hkeys : kf.getKeys context = some keys) (hsockets : sockets ∈ keys.val)
    (hmark : ∀ key ∈ keys.val, key.bytes ≠ Text.byteOrderMark ++ sockets.bytes)
    (hreceived : received kf = some metadata) : Passed kf metadata := by
  obtain ⟨hthere, hfrom⟩ := mem_of_mapM hreceived
  -- the key is posted, so there is an entry that Dart finds
  have hposted : ⟨.ofCString context, .ofCString sockets,
      safeStr (kf.getString context sockets)⟩ ∈ entries kf :=
    List.mem_flatMap.mpr ⟨context, by decide,
      mem_sectionEntries.mpr ⟨keys, hkeys, sockets, hsockets, rfl⟩⟩
  have hsome : (metadata.find? fun e => e.section_ = "Context" ∧ e.key = "sockets").isSome := by
    obtain ⟨e, he, hdecode⟩ := hthere _ hposted
    rw [decodeMetadataEntry_eq] at hdecode
    obtain ⟨s, hs, hdecode⟩ := Option.bind_eq_some_iff.mp hdecode
    obtain ⟨k, hk, hdecode⟩ := Option.bind_eq_some_iff.mp hdecode
    obtain ⟨v, -, hdecode⟩ := Option.bind_eq_some_iff.mp hdecode
    obtain rfl := Option.some.inj hdecode
    obtain rfl := Option.some.inj (hs.symm.trans decode_context)
    obtain rfl := Option.some.inj (hk.symm.trans decode_sockets)
    exact List.find?_isSome.mpr ⟨_, he, by simp⟩
  obtain ⟨e, hfind⟩ := Option.isSome_iff_exists.mp hsome
  refine ⟨e, hfind, ?_⟩
  -- and what it finds was posted for the key
  obtain ⟨entry, hentry, hdecode⟩ := hfrom e (List.mem_of_find?_eq_some hfind)
  obtain ⟨sec, hsec, hentry⟩ := List.mem_flatMap.mp hentry
  obtain ⟨keys', hkeys', key, hkey, rfl⟩ := mem_sectionEntries.mp hentry
  rw [decodeMetadataEntry_eq] at hdecode
  obtain ⟨s, hs, hdecode⟩ := Option.bind_eq_some_iff.mp hdecode
  obtain ⟨k, hk, hdecode⟩ := Option.bind_eq_some_iff.mp hdecode
  obtain ⟨v, hv, hdecode⟩ := Option.bind_eq_some_iff.mp hdecode
  obtain rfl := Option.some.inj hdecode
  obtain ⟨rfl, rfl⟩ : s = "Context" ∧ k = "sockets" := by simpa using List.find?_some hfind
  obtain rfl := eq_context hsec hs
  obtain rfl := Option.some.inj (hkeys.symm.trans hkeys')
  obtain rfl := eq_sockets (hmark key hkey) hk
  exact hv

/-! ### A blank in front of an entry -/

/-- A keyfile with nothing but this value. -/
def oneValue (value : CString) (pieces : Strv) : KeyFile where
  getGroups := ⟨[context], by decide⟩
  getKeys group := if group = context then some ⟨[sockets], by decide⟩ else none
  getString group key := if group = context ∧ key = sockets then some value else none
  getStringList group key := if group = context ∧ key = sockets then some pieces else none
  getBoolean _ _ := false

theorem oneValue_getKeys (value : CString) (pieces : Strv) :
    (oneValue value pieces).getKeys context = some ⟨[sockets], by decide⟩ := rfl

/-- What is received of it. -/
theorem received_oneValue {value : CString} {pieces : Strv} {text : String}
    (h : Text.utf8Decode (CppString.ofCString value).val = some text) :
    received (oneValue value pieces) = some [⟨"Context", "sockets", text⟩] := by
  have hentries : entries (oneValue value pieces) =
      [⟨.ofCString context, .ofCString sockets, .ofCString value⟩] := rfl
  have hdecode := decodeMetadataEntry_eq
    ⟨.ofCString context, .ofCString sockets, .ofCString value⟩
  simp only [decode_context, decode_sockets, h, Option.bind_some] at hdecode
  rw [received, hentries, List.mapM_cons, hdecode]
  rfl

theorem utf8Validate_encode (s : String) : utf8Validate (Text.utf8Encode s) = true :=
  congrArg Option.isSome (Text.fromUTF8_encode s)

/-- `sockets=wayland; pulseaudio;`. -/
def blankValue : CString :=
  ⟨Text.utf8Encode "wayland; pulseaudio;", by decide, by decide⟩

def blankPieces : Strv :=
  ⟨[⟨Text.utf8Encode "wayland", by decide, by decide⟩,
    ⟨Text.utf8Encode " pulseaudio", by decide, by decide⟩], by decide⟩

def blankKeyFile : KeyFile := oneValue blankValue blankPieces

theorem blankValue_valid : utf8Validate blankValue.bytes = true :=
  utf8Validate_encode "wayland; pulseaudio;"

theorem blankKeyFile_value : SocketsValue blankKeyFile blankValue.bytes := by
  constructor
  · rw [getString, if_pos blankValue_valid]
    decide
  · rw [getStringList, if_pos blankValue_valid]
    decide

/-- What is received of it. -/
def blankMetadata : List FlatpakPermission := [⟨"Context", "sockets", "wayland; pulseaudio;"⟩]

theorem received_blank : received blankKeyFile = some blankMetadata :=
  received_oneValue (Text.utf8Decode_encode (s := "wayland; pulseaudio;") (by decide))

/-- **One reader sees `pulseaudio`, and the other does not.** -/
theorem readers_disagree :
    received blankKeyFile = some blankMetadata ∧
      "all" ∉ listValue blankMetadata "Context" "devices" ∧
      ¬ Derived blankMetadata ∧ metadataRequestsSocket blankKeyFile pulseaudio = true := by
  refine ⟨received_blank, by decide, ?_, by decide +kernel⟩
  rw [Derived]
  decide

/-- `sockets=wayland;pulseaudio;`. -/
def plainValue : CString :=
  ⟨Text.utf8Encode "wayland;pulseaudio;", by decide, by decide⟩

def plainPieces : Strv :=
  ⟨[⟨Text.utf8Encode "wayland", by decide, by decide⟩, pulseaudio], by decide⟩

def plainKeyFile : KeyFile := oneValue plainValue plainPieces

theorem plainValue_valid : utf8Validate plainValue.bytes = true :=
  utf8Validate_encode "wayland;pulseaudio;"

theorem plainKeyFile_value : SocketsValue plainKeyFile plainValue.bytes := by
  constructor
  · rw [getString, if_pos plainValue_valid]
    decide
  · rw [getStringList, if_pos plainValue_valid]
    decide

def plainMetadata : List FlatpakPermission := [⟨"Context", "sockets", "wayland;pulseaudio;"⟩]

theorem received_plain : received plainKeyFile = some plainMetadata :=
  received_oneValue (Text.utf8Decode_encode (s := "wayland;pulseaudio;") (by decide))

theorem readers_agree_iff_blank :
    ¬ (Derived blankMetadata ↔ metadataRequestsSocket blankKeyFile pulseaudio = true) ∧
      (Derived plainMetadata ↔ metadataRequestsSocket plainKeyFile pulseaudio = true) := by
  have hblank : ¬ ReadAlike blankValue.bytes := by
    intro halike
    rcases (halike blankValue_valid).1 (by rw [Listable]; decide) with hexact | hmarked
    · rw [ExactName] at hexact
      exact absurd hexact (by decide)
    · rw [EscapedName, MarkedName, BlankName] at hmarked
      exact absurd hmarked (by decide)
  have hplain : ReadAlike plainValue.bytes := by
    refine fun _ => ⟨fun _ => .inl ?_, fun hunlisted => absurd ?_ hunlisted⟩
    · rw [ExactName]
      decide
    · rw [Listable]
      decide
  have hpassed : ∀ {value pieces metadata}, received (oneValue value pieces) = some metadata →
      Passed (oneValue value pieces) metadata :=
    passed_of_received (oneValue_getKeys _ _) List.mem_cons_self (by decide)
  exact ⟨mt (readers_agree_iff blankKeyFile_value (hpassed received_blank) (by decide)).mp hblank,
    (readers_agree_iff plainKeyFile_value (hpassed received_plain) (by decide)).mpr hplain⟩

end SocketReaders
