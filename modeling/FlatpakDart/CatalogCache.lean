/-
Catalog databases and their stamps (`lib/src/appstream/catalog_cache.dart`).

A database is built from a source, whose identity is a modification time and a
resolved path; the stamp beside it is a text of two lines that says from which.

* `needsRebuild_eq_false_iff` — the check answers "no" exactly if there is a
  database and the stamp names the source;
* `names_stampBytes_iff` — a whole stamp names the source it was written for, and
  no other unless the path has a line break.
-/
import FlatpakDart.Text

namespace CatalogCache

/-! ### Sources -/

/-- The characters `toIso8601String` uses. -/
def isoChars : List Char := "0123456789-+:.TZ".toList

/-- What identifies a source: `lastModifiedSync().toUtc().toIso8601String()` and
`_sourceIdentity`. -/
structure SourceId where
  mtime : String
  path : String
  iso : mtime.toList.all isoChars.contains = true
  deriving DecidableEq

theorem SourceId.mem_isoChars (id : SourceId) : ∀ c ∈ id.mtime.toList, c ∈ isoChars := by
  intro c hc
  exact List.contains_iff_mem.mp (List.all_eq_true.mp id.iso c hc)

/-! ### The stamp -/

/-- `LineSplitter`, with the line read so far: a line ends at `\n`, `\r\n`, `\r`
or, unless it is empty, at the end. -/
def splitLines (line : List Char) : List Char → List (List Char)
  | [] => if line = [] then [] else [line]
  | '\n' :: rest => line :: splitLines [] rest
  | '\r' :: '\n' :: rest => line :: splitLines [] rest
  | '\r' :: rest => line :: splitLines [] rest
  | c :: rest => splitLines (line ++ [c]) rest

/-- `const LineSplitter().convert(text)`. -/
def lineSplitter (text : String) : List String := (splitLines [] text.toList).map String.ofList

/-- The text of a stamp. -/
def stampText (id : SourceId) : String := id.mtime ++ "\n" ++ id.path ++ "\n"

/-- A whole stamp file. -/
def stampBytes (id : SourceId) : List UInt8 := Text.utf8Encode (stampText id)

/-! ### The files of one cache key -/

/-- What a database file holds. -/
inductive Db
  /-- less than a whole parse, or more than one -/
  | unfinished
  /-- the complete result of a successful parse -/
  | complete (id : SourceId)
  deriving DecidableEq

/-- The database at `dbPath` and the stamp beside it. -/
structure Disk where
  db : Option Db
  stamp : Option (List UInt8)
  deriving DecidableEq

/-- How far writing a stamp gets. -/
inductive StampWrite
  | whole
  /-- nothing is written -/
  | skipped
  /-- the file is left with the first `n` bytes -/
  | cut (n : ℕ)

/-- `stampCatalogSource`, for a source that has this identity now; `none` where
its modification time cannot be read.  Every failure is swallowed. -/
def stampCatalogSource (stamp : Option (List UInt8)) (source : Option SourceId) :
    StampWrite → Option (List UInt8)
  | .whole =>
    match source with
    | none => stamp
    | some id => some (stampBytes id)
  | .skipped => stamp
  | .cut n =>
    match source with
    | none => stamp
    | some id => some ((stampBytes id).take n)

/-- `catalogNeedsRebuild`. -/
def catalogNeedsRebuild (d : Disk) (source : Option SourceId) : Bool :=
  match d.db, d.stamp with
  | none, _ => true
  | _, none => true
  | some _, some bytes =>
    match Text.utf8Decode bytes with
    -- `readAsStringSync` throws
    | none => true
    | some text =>
      match lineSplitter text, source with
      | mtime :: path :: _, some id => mtime != id.mtime || path != id.path
      -- fewer than two lines, or no source
      | _, _ => true

/-- The first two lines of the stamp are the identity of the source. -/
def Names (stamp : Option (List UInt8)) (id : SourceId) : Prop :=
  ∃ bytes text rest, stamp = some bytes ∧ Text.utf8Decode bytes = some text ∧
    lineSplitter text = id.mtime :: id.path :: rest

theorem names_unique {stamp : Option (List UInt8)} {id id' : SourceId} (h : Names stamp id)
    (h' : Names stamp id') : id = id' := by
  obtain ⟨bytes, text, rest, rfl, hdecode, hlines⟩ := h
  obtain ⟨bytes', text', rest', hbytes, hdecode', hlines'⟩ := h'
  obtain rfl := Option.some_inj.mp hbytes
  obtain rfl := Option.some_inj.mp (hdecode.symm.trans hdecode')
  obtain ⟨mtime, path, iso⟩ := id
  obtain ⟨mtime', path', iso'⟩ := id'
  have hboth := hlines.symm.trans hlines'
  simp only [List.cons.injEq] at hboth
  obtain ⟨rfl, rfl, -⟩ := hboth
  rfl

theorem needsRebuild_eq_false_iff {d : Disk} {id : SourceId} :
    catalogNeedsRebuild d (some id) = false ↔ d.db ≠ none ∧ Names d.stamp id := by
  obtain ⟨db, stamp⟩ := d
  -- in the order in which the check gives up
  cases db with
  | none => simp [catalogNeedsRebuild]
  | some db =>
    cases stamp with
    | none => simp [catalogNeedsRebuild, Names]
    | some bytes =>
      cases hdecode : Text.utf8Decode bytes with
      | none => simp [catalogNeedsRebuild, Names, hdecode]
      | some text =>
        rcases hlines : lineSplitter text with _ | ⟨mtime, _ | ⟨path, rest⟩⟩ <;>
          simp [catalogNeedsRebuild, Names, hdecode, hlines]

/-! ### What a whole stamp names -/

/-- The path fills one line of the stamp. -/
def OneLine (path : String) : Prop := ∀ c ∈ path.toList, c ≠ '\n' ∧ c ≠ '\r'

instance (path : String) : Decidable (OneLine path) :=
  List.decidableBAll (fun c => c ≠ '\n' ∧ c ≠ '\r') path.toList

/-- Text without a line break is added to the line read so far. -/
theorem splitLines_text {xs : List Char} (h : ∀ c ∈ xs, c ≠ '\n' ∧ c ≠ '\r')
    (line rest : List Char) : splitLines line (xs ++ rest) = splitLines (line ++ xs) rest := by
  induction xs generalizing line with
  | nil => rw [List.nil_append, List.append_nil]
  | cons c xs ih =>
    obtain ⟨hnewline, hreturn⟩ := h c (by simp)
    -- only the last pattern fits `c`
    have hc : splitLines line (c :: (xs ++ rest)) = splitLines (line ++ [c]) (xs ++ rest) := by
      rw [splitLines]
      · exact hnewline
      · exact fun _ hc _ => hreturn hc
      · exact hreturn
    rw [List.cons_append, hc, ih (fun d hd => h d (List.mem_cons_of_mem c hd)),
      List.append_assoc, List.singleton_append]

theorem splitLines_line {xs : List Char} (h : ∀ c ∈ xs, c ≠ '\n' ∧ c ≠ '\r')
    (line rest : List Char) :
    splitLines line (xs ++ '\n' :: rest) = (line ++ xs) :: splitLines [] rest := by
  rw [splitLines_text h, splitLines]

theorem iso_oneLine : ∀ c ∈ isoChars, c ≠ '\n' ∧ c ≠ '\r' := by
  have hall : isoChars.all (fun c => c != '\n' && c != '\r') = true := by decide
  simpa using hall

theorem lineSplitter_stampText (id : SourceId) : lineSplitter (stampText id) =
    id.mtime :: (splitLines [] (id.path.toList ++ ['\n'])).map String.ofList := by
  have htext : (stampText id).toList = id.mtime.toList ++ '\n' :: (id.path.toList ++ ['\n']) := by
    simp [stampText]
  have hmtime := splitLines_line (fun c hc => iso_oneLine c (id.mem_isoChars c hc)) []
    (id.path.toList ++ ['\n'])
  rw [lineSplitter, htext, hmtime]
  simp

theorem splitLines_ne_nil (line xs : List Char) (h : line ≠ [] ∨ xs ≠ []) :
    splitLines line xs ≠ [] := by
  fun_induction splitLines line xs with
  | case1 => simp at h
  | case2 => simp
  | case3 => simp
  | case4 => simp
  | case5 => simp
  | case6 line c rest _ _ _ ih => exact ih (.inl (by simp))

theorem splitLines_oneLine (line xs : List Char) (h : ∀ c ∈ line, c ≠ '\n' ∧ c ≠ '\r') :
    ∀ l ∈ splitLines line xs, ∀ c ∈ l, c ≠ '\n' ∧ c ≠ '\r' := by
  fun_induction splitLines line xs with
  | case1 => simp
  | case2 line _ => simpa using h
  | case3 line rest ih => simpa using ⟨h, ih (by simp)⟩
  | case4 line rest ih => simpa using ⟨h, ih (by simp)⟩
  | case5 line rest _ ih => simpa using ⟨h, ih (by simp)⟩
  | case6 line c rest hnewline _ hreturn ih =>
    refine ih fun d hd => ?_
    rcases List.mem_append.mp hd with hd | hd
    · exact h d hd
    · rw [List.mem_singleton.mp hd]
      exact ⟨hnewline, hreturn⟩

/-- Nothing a time is written with is encoded like a byte order mark. -/
theorem iso_unmarked : ∀ c ∈ '\n' :: isoChars, (String.utf8EncodeChar c).head? ≠ some 0xEF ∧
    String.utf8EncodeChar c ≠ [] := by
  have hall : ('\n' :: isoChars).all (fun c => (String.utf8EncodeChar c).head? != some 0xEF &&
      String.utf8EncodeChar c != []) = true := by decide
  intro c hc
  simpa using List.all_eq_true.mp hall c hc

theorem stampBytes_unmarked (id : SourceId) : ¬ Text.byteOrderMark <+: stampBytes id := by
  -- the time comes first, or a line break if it were empty
  have hhead : ∃ c rest, (stampText id).toList = c :: rest ∧ c ∈ '\n' :: isoChars := by
    have htext : (stampText id).toList = id.mtime.toList ++ '\n' :: (id.path.toList ++ ['\n']) := by
      simp [stampText]
    cases hmtime : id.mtime.toList with
    | nil => exact ⟨'\n', _, by rw [htext, hmtime, List.nil_append], by simp⟩
    | cons c cs =>
      exact ⟨c, _, by rw [htext, hmtime, List.cons_append],
        List.mem_cons_of_mem _ (id.mem_isoChars c (by simp [hmtime]))⟩
  obtain ⟨c, rest, htext, hc⟩ := hhead
  obtain ⟨hmark, hne⟩ := iso_unmarked c hc
  obtain ⟨b, bs, hb⟩ := List.exists_cons_of_ne_nil hne
  rintro ⟨tail, htail⟩
  rw [stampBytes, Text.utf8Encode, htext, List.flatMap_cons, hb, List.cons_append] at htail
  have hfirst : b = 0xEF := (List.cons.inj htail).1.symm
  exact hmark (by rw [hb, hfirst]; rfl)

theorem utf8Decode_stampBytes (id : SourceId) :
    Text.utf8Decode (stampBytes id) = some (stampText id) :=
  Text.utf8Decode_encode (stampBytes_unmarked id)

/-- The stamp names no source but this one. -/
def NamesOnly (stamp : Option (List UInt8)) (id : SourceId) : Prop :=
  ∀ id', Names stamp id' → id' = id

theorem names_stampBytes {id : SourceId} (h : OneLine id.path) :
    Names (some (stampBytes id)) id := by
  refine ⟨stampBytes id, stampText id, [], rfl, utf8Decode_stampBytes id, ?_⟩
  rw [lineSplitter_stampText, splitLines_line h]
  simp [splitLines]

/-- A whole stamp names no source but its own exactly if the path has no line
break. -/
theorem namesOnly_stampBytes_iff {id : SourceId} :
    NamesOnly (some (stampBytes id)) id ↔ OneLine id.path := by
  constructor
  · intro h
    -- it names the source whose path is the second line
    obtain ⟨l, ls, hlines⟩ := List.exists_cons_of_ne_nil
      (splitLines_ne_nil [] (id.path.toList ++ ['\n']) (by simp))
    have hl := splitLines_oneLine [] (id.path.toList ++ ['\n']) (by simp) l (by simp [hlines])
    have hnames : Names (some (stampBytes id)) { id with path := String.ofList l } :=
      ⟨stampBytes id, stampText id, ls.map String.ofList, rfl, utf8Decode_stampBytes id, by
        rw [lineSplitter_stampText, hlines, List.map_cons]⟩
    have hpath : String.ofList l = id.path := congrArg SourceId.path (h _ hnames)
    rw [← hpath]
    simpa [OneLine] using hl
  · exact fun h id' hid' => names_unique hid' (names_stampBytes h)

/-- A whole stamp of a source whose path has no line break names that source
and no other. -/
theorem names_stampBytes_iff {id id' : SourceId} (h : OneLine id.path) :
    Names (some (stampBytes id)) id' ↔ id' = id := by
  refine ⟨fun h' => names_unique h' (names_stampBytes h), ?_⟩
  rintro rfl
  exact names_stampBytes h

/-! ### What the check promises -/

/-- Whatever source the check answers "no" for, the database is a whole parse of
that source. -/
def Sound (d : Disk) : Prop :=
  ∀ id, catalogNeedsRebuild d (some id) = false → d.db = some (.complete id)

theorem sound_absent (stamp : Option (List UInt8)) : Sound ⟨none, stamp⟩ :=
  fun id h => absurd h (by simp [catalogNeedsRebuild])

theorem sound_unfinished_iff {stamp : Option (List UInt8)} :
    Sound ⟨some .unfinished, stamp⟩ ↔ ∀ id, ¬ Names stamp id := by
  simp only [Sound, needsRebuild_eq_false_iff]
  constructor
  · exact fun h id hid => absurd (h id ⟨by simp, hid⟩) (by simp)
  · exact fun h id hid => absurd hid.2 (h id)

theorem sound_complete_iff {stamp : Option (List UInt8)} {id : SourceId} :
    Sound ⟨some (.complete id), stamp⟩ ↔ NamesOnly stamp id := by
  simp only [Sound, NamesOnly, needsRebuild_eq_false_iff]
  constructor
  · intro h id' hid'
    simpa using (h id' ⟨by simp, hid'⟩).symm
  · rintro h id' ⟨-, hid'⟩
    rw [h id' hid']

/-! ### Two deploys -/

/-- OSTree dates what it checks out 1970. -/
def deployA : SourceId := ⟨"1970-01-01T00:00:00.000Z", "/a/appstream.xml", by decide⟩

def deployB : SourceId := ⟨"1970-01-01T00:00:00.000Z", "/b/appstream.xml", by decide⟩

theorem deployA_oneLine : OneLine deployA.path := by
  decide

theorem deployB_oneLine : OneLine deployB.path := by
  decide

end CatalogCache
