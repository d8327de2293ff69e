/-
Keys of the catalog cache (`lib/src/appstream/catalog_cache.dart`).

A key names the installation, the remote, the arch and the language of a catalog,
joined by underscores; what is not safe in a filename is an underscore too.

* `installKey_inj` — installations keep apart;
* `parts_eq_iff` — the other three are the same joined if their slugs are the same,
  or if one of them reads on into the next (`Regroups`);
* `keys_differ_iff` — so exactly these catalogs share a key.
-/
import FlatpakDart.DartString
import FlatpakDart.Separator
import Mathlib.Data.Nat.Digits.Lemmas

open Separator

namespace CacheKey

/-! ### `catalog_cache.dart` -/

def underscore : UInt16 := 0x5F

/-- `[A-Za-z0-9._-]`. -/
def safe (u : UInt16) : Bool :=
  (0x41 ≤ u && u ≤ 0x5A) || (0x61 ≤ u && u ≤ 0x7A) || (0x30 ≤ u && u ≤ 0x39) || u == 0x2E ||
    u == underscore || u == 0x2D

/-- `slugForCache`. -/
def slugForCache (value : DartString) : DartString :=
  value.map fun u => if safe u then u else underscore

/-- `fnv1a64`; an `int` has 64 bits. -/
def fnv1a64 (value : DartString) : Int64 :=
  (DartString.utf8Encode value).foldl
    (fun hash byte => (hash ^^^ byte.toUInt64.toInt64) * 0x100000001b3)
    (0xcbf29ce484222325 : UInt64).toInt64

def hexDigit (d : ℕ) : UInt16 := if d < 10 then .ofNat (0x30 + d) else .ofNat (0x57 + d)

/-- `toRadixString(16)` of a number that is not negative. -/
def magnitude (n : ℕ) : DartString :=
  if n = 0 then [hexDigit 0] else (Nat.digits 16 n).reverse.map hexDigit

/-- `toRadixString(16)`. -/
def toRadixString16 (n : ℤ) : DartString :=
  if n < 0 then 0x2D :: magnitude n.natAbs else magnitude n.natAbs

/-- `padLeft`. -/
def padLeft (s : DartString) (width : ℕ) (padding : UInt16) : DartString :=
  List.replicate (width - s.length) padding ++ s

/-- What stands for the path of an installation. -/
def hashPart (name : DartString) : DartString :=
  padLeft (toRadixString16 (fnv1a64 name).toInt) 16 (hexDigit 0)

/-- `_installKey`. -/
def installKey (name : DartString) : DartString :=
  if name = .lit "user" ∨ name = .lit "system" then name else .lit "at_" ++ hashPart name

/-- What names a catalog; an empty arch or language stands for the default one. -/
structure Catalog where
  installationName : DartString
  remote : DartString
  arch : DartString
  language : DartString
  deriving DecidableEq

/-- A part that may be left out: how that is spelled, and what a named one begins with. -/
def part (unspecified named value : DartString) : DartString :=
  if value = [] then unspecified else named ++ slugForCache value

/-- What a named arch begins with. -/
def archMark : DartString := .lit "arch."

/-- What a named language begins with. -/
def langMark : DartString := .lit "lang."

def archPart (arch : DartString) : DartString := part (.lit "anyarch") archMark arch

def langPart (language : DartString) : DartString := part (.lit "srclang") langMark language

/-- `catalogCacheKey`. -/
def catalogCacheKey (c : Catalog) : DartString :=
  installKey c.installationName ++ underscore :: (slugForCache c.remote ++
    underscore :: (archPart c.arch ++ underscore :: langPart c.language))

/-! ### The installation -/

/-- The digits of a hash are read back. -/
def hexValue (u : UInt16) : ℕ := if u.toNat < 0x57 then u.toNat - 0x30 else u.toNat - 0x57

theorem hexValue_hexDigit : ∀ d < 16, hexValue (hexDigit d) = d := by decide

theorem hexDigit_ne : ∀ d < 16, hexDigit d ≠ underscore ∧ hexDigit d ≠ 0x2D := by decide

/-- Digits are neither separators nor signs. -/
theorem mem_magnitude {n : ℕ} {u : UInt16} (h : u ∈ magnitude n) : ∃ d < 16, u = hexDigit d := by
  rw [magnitude] at h
  split at h
  · exact ⟨0, by decide, List.mem_singleton.mp h⟩
  · obtain ⟨d, hd, rfl⟩ := List.mem_map.mp h
    exact ⟨d, Nat.digits_lt_base (by decide) (List.mem_reverse.mp hd), rfl⟩

theorem magnitude_value (k n : ℕ) :
    Nat.ofDigits 16 ((List.replicate k (hexDigit 0) ++ magnitude n).reverse.map hexValue) = n := by
  have hzeros : (List.replicate k (hexDigit 0)).map hexValue = List.replicate k 0 := by
    rw [List.map_replicate, hexValue_hexDigit 0 (by decide)]
  have hdigits : Nat.ofDigits 16 ((magnitude n).reverse.map hexValue) = n := by
    rw [magnitude]
    split
    · next hn =>
      subst hn
      rfl
    · rw [← List.map_reverse, List.reverse_reverse, List.map_map]
      have hback : ∀ d ∈ Nat.digits 16 n, (hexValue ∘ hexDigit) d = d := fun d hd =>
        hexValue_hexDigit d (Nat.digits_lt_base (by decide) hd)
      rw [List.map_congr_left hback, List.map_id', Nat.ofDigits_digits]
  rw [List.reverse_append, List.map_append, List.reverse_replicate, hzeros,
    Nat.ofDigits_append_replicate_zero, hdigits]

theorem mem_magnitude_ne {n : ℕ} {u : UInt16} (h : u ∈ magnitude n) :
    u ≠ underscore ∧ u ≠ 0x2D := by
  obtain ⟨d, hd, rfl⟩ := mem_magnitude h
  exact hexDigit_ne d hd

theorem mem_padding_ne {k : ℕ} {u : UInt16} (h : u ∈ List.replicate k (hexDigit 0)) :
    u ≠ underscore ∧ u ≠ 0x2D := by
  rw [List.eq_of_mem_replicate h]
  exact hexDigit_ne 0 (by decide)

/-- A number, padded: its sign shows, and its magnitude is read back. -/
theorem padLeft_eq (n : ℤ) (width : ℕ) : ∃ k, padLeft (toRadixString16 n) width (hexDigit 0) =
    if n < 0 then List.replicate k (hexDigit 0) ++ 0x2D :: magnitude n.natAbs
    else List.replicate k (hexDigit 0) ++ magnitude n.natAbs := by
  refine ⟨width - (toRadixString16 n).length, ?_⟩
  rw [padLeft]
  split
  · next hn => rw [toRadixString16, if_pos hn]
  · next hn => rw [toRadixString16, if_neg hn]

theorem padLeft_inj {n m : ℤ} {width : ℕ}
    (h : padLeft (toRadixString16 n) width (hexDigit 0) =
      padLeft (toRadixString16 m) width (hexDigit 0)) : n = m := by
  obtain ⟨k, hk⟩ := padLeft_eq n width
  obtain ⟨l, hl⟩ := padLeft_eq m width
  rw [hk, hl] at h
  have hpad : ∀ k, (0x2D : UInt16) ∉ List.replicate k (hexDigit 0) :=
    fun k hmem => (mem_padding_ne hmem).2 rfl
  have hsign : ∀ k n, (0x2D : UInt16) ∉ List.replicate k (hexDigit 0) ++ magnitude n := by
    intro k n hmem
    rcases List.mem_append.mp hmem with hmem | hmem
    · exact hpad k hmem
    · exact (mem_magnitude_ne hmem).2 rfl
  by_cases hn : n < 0
  · by_cases hm : m < 0
    · rw [if_pos hn, if_pos hm, cut_unique (hpad k) (hpad l)] at h
      have hn' := magnitude_value 0 n.natAbs
      rw [h.2, magnitude_value 0 m.natAbs] at hn'
      omega
    · rw [if_pos hn, if_neg hm] at h
      exact absurd (h ▸ List.mem_append_right _ List.mem_cons_self) (hsign l m.natAbs)
  · by_cases hm : m < 0
    · rw [if_neg hn, if_pos hm] at h
      exact absurd (h ▸ List.mem_append_right _ List.mem_cons_self) (hsign k n.natAbs)
    · rw [if_neg hn, if_neg hm] at h
      have hn' := magnitude_value k n.natAbs
      rw [h, magnitude_value l m.natAbs] at hn'
      omega

theorem underscore_notMem_hashPart (name : DartString) : underscore ∉ hashPart name := by
  obtain ⟨k, hk⟩ := padLeft_eq (fnv1a64 name).toInt 16
  rw [hashPart, hk]
  intro hmem
  split at hmem
  · rcases List.mem_append.mp hmem with hmem | hmem
    · exact (mem_padding_ne hmem).1 rfl
    · rcases List.mem_cons.mp hmem with hminus | hmem
      · exact absurd hminus (by decide)
      · exact (mem_magnitude_ne hmem).1 rfl
  · rcases List.mem_append.mp hmem with hmem | hmem
    · exact (mem_padding_ne hmem).1 rfl
    · exact (mem_magnitude_ne hmem).1 rfl

/-- The word in front says which kind of installation it is. -/
theorem installKey_cases (name rest : DartString) :
    (installKey name = name ∧ (name = .lit "user" ∨ name = .lit "system")) ∨
      installKey name ++ underscore :: rest =
        .lit "at" ++ underscore :: (hashPart name ++ underscore :: rest) := by
  rw [installKey]
  split
  · next hname => exact .inl ⟨rfl, hname⟩
  · right
    have hat : DartString.lit "at_" = .lit "at" ++ [underscore] := by decide
    simp [hat]

theorem hashPart_inj {a b : DartString} (h : hashPart a = hashPart b) : fnv1a64 a = fnv1a64 b :=
  Int64.toInt_inj.mp (padLeft_inj h)

/-- **Installations keep apart**, if the hash does not collide on them. -/
theorem installKey_inj {a b x y : DartString} (hfnv : fnv1a64 a = fnv1a64 b → a = b) :
    installKey a ++ underscore :: x = installKey b ++ underscore :: y ↔ a = b ∧ x = y := by
  have hword : ∀ w : DartString, w = .lit "user" ∨ w = .lit "system" →
      underscore ∉ w ∧ w ≠ .lit "at" := by
    rintro w (rfl | rfl)
    · decide
    · decide
  have hat : underscore ∉ DartString.lit "at" := by decide
  constructor
  · intro h
    rcases installKey_cases a x with ⟨ha, hnamed⟩ | ha
    · rcases installKey_cases b y with ⟨hb, hnamed'⟩ | hb
      · rw [ha, hb] at h
        exact (cut_unique (hword a hnamed).1 (hword b hnamed').1).mp h
      · rw [ha, hb] at h
        exact absurd ((cut_unique (hword a hnamed).1 hat).mp h).1 (hword a hnamed).2
    · rcases installKey_cases b y with ⟨hb, hnamed'⟩ | hb
      · rw [ha, hb] at h
        exact absurd ((cut_unique hat (hword b hnamed').1).mp h).1.symm (hword b hnamed').2
      · rw [ha, hb] at h
        obtain ⟨-, htail⟩ := (cut_unique hat hat).mp h
        obtain ⟨hhash, hrest⟩ :=
          (cut_unique (underscore_notMem_hashPart a) (underscore_notMem_hashPart b)).mp htail
        exact ⟨hfnv (hashPart_inj hhash), hrest⟩
  · rintro ⟨rfl, rfl⟩
    rfl

/-! ### The other parts -/

theorem slugForCache_eq_nil {value : DartString} : slugForCache value = [] ↔ value = [] :=
  List.map_eq_nil_iff

/-- The spellings of a part: no separator in them, and no named value gives the
unspecified one. -/
structure Marks (unspecified named : DartString) : Prop where
  apart : ∀ w, unspecified ≠ named ++ w
  unspecified_whole : underscore ∉ unspecified
  named_whole : underscore ∉ named

theorem archMarks : Marks (.lit "anyarch") archMark where
  apart w h := absurd (congrArg (List.take 2) h)
    (by simp [archMark, DartString.lit, DartString.codeUnits])
  unspecified_whole := by decide
  named_whole := by decide

theorem langMarks : Marks (.lit "srclang") langMark where
  apart w h := absurd (congrArg (List.take 1) h)
    (by simp [langMark, DartString.lit, DartString.codeUnits])
  unspecified_whole := by decide
  named_whole := by decide

section Marks

variable {unspecified named value value' m w y : DartString} (h : Marks unspecified named)

include h

theorem Marks.part_eq_named :
    part unspecified named value = named ++ w ↔ value ≠ [] ∧ slugForCache value = w := by
  rw [part]
  split
  · next hvalue => exact iff_of_false (h.apart w) fun hw => hw.1 hvalue
  · next hvalue =>
    rw [List.append_cancel_left_eq]
    exact (and_iff_right hvalue).symm

/-- A part that holds a separator is a named one, and has it in its slug. -/
theorem Marks.part_cut : part unspecified named value = m ++ underscore :: y ↔
    ∃ w, m = named ++ w ∧ slugForCache value = w ++ underscore :: y := by
  rw [part]
  split
  · next hvalue =>
    subst hvalue
    constructor
    · intro heq
      exact absurd (heq ▸ by simp) h.unspecified_whole
    · rintro ⟨w, -, hw⟩
      exact absurd hw (by simp [slugForCache])
  · exact cut_after_beginning h.named_whole

theorem Marks.part_eq_iff : part unspecified named value = part unspecified named value' ↔
    slugForCache value = slugForCache value' := by
  by_cases hvalue' : value' = []
  · subst hvalue'
    by_cases hvalue : value = []
    · rw [hvalue]
      exact iff_of_true rfl rfl
    · have hnamed : part unspecified named value = named ++ slugForCache value := if_neg hvalue
      refine iff_of_false (fun heq => ?_) fun heq => hvalue (slugForCache_eq_nil.mp heq)
      exact h.apart _ (heq.symm.trans hnamed)
  · have hnamed : part unspecified named value' = named ++ slugForCache value' := if_neg hvalue'
    rw [hnamed, h.part_eq_named]
    refine and_iff_right_of_imp fun heq hvalue => hvalue' ?_
    rw [← slugForCache_eq_nil, ← heq, slugForCache_eq_nil, hvalue]

end Marks

/-- An arch is not taken for a language. -/
theorem langMark_ne_archPart (z arch : DartString) : langMark ++ z ≠ archPart arch := by
  intro h
  have hfirst := congrArg (List.take 1) h
  rw [archPart, part] at hfirst
  split at hfirst
  · exact absurd hfirst (by simp [langMark, DartString.lit, DartString.codeUnits])
  · exact absurd hfirst (by simp [langMark, archMark, DartString.lit, DartString.codeUnits])

/-! ### What shares a key -/

/-- The slugs are the same. -/
def SameSlugs (c d : Catalog) : Prop :=
  slugForCache c.remote = slugForCache d.remote ∧ slugForCache c.arch = slugForCache d.arch ∧
    slugForCache c.language = slugForCache d.language

/-- The slugs differ, as a part of the one holds, behind an underscore, what belongs to
another part of the other. -/
inductive Regroups (c d : Catalog) : Prop
  /-- the remote of `c` goes on like the arch of `d` begins -/
  | archInRemote (y : DartString)
      (hremote : slugForCache c.remote =
        slugForCache d.remote ++ underscore :: (archMark ++ y))
      (harch : slugForCache d.arch = y ++ underscore :: archPart c.arch)
      (hlanguage : slugForCache c.language = slugForCache d.language)
  /-- the arch of `c` goes on like the language of `d` begins -/
  | languageInArch (z : DartString)
      (hremote : slugForCache c.remote = slugForCache d.remote) (hnamed : d.arch ≠ [])
      (harch : slugForCache c.arch = slugForCache d.arch ++ underscore :: (langMark ++ z))
      (hlanguage : slugForCache d.language = z ++ underscore :: langPart c.language)
  /-- the remote of `c` goes on like the arch of `d` and then its language -/
  | languageInRemote (z : DartString)
      (hremote : slugForCache c.remote = slugForCache d.remote ++
        underscore :: (archPart d.arch ++ underscore :: (langMark ++ z)))
      (hlanguage : slugForCache d.language =
        z ++ underscore :: (archPart c.arch ++ underscore :: langPart c.language))
  /-- both the remote and the arch of `c` go on like the next part of `d` begins -/
  | both (y v z : DartString)
      (hremote : slugForCache c.remote =
        slugForCache d.remote ++ underscore :: (archMark ++ y))
      (harch' : slugForCache d.arch = y ++ underscore :: (archMark ++ v))
      (harch : slugForCache c.arch = v ++ underscore :: (langMark ++ z))
      (hlanguage : slugForCache d.language = z ++ underscore :: langPart c.language)
  /-- the arch of `c` holds all of the arch of `d` -/
  | archInArch (y z : DartString)
      (hremote : slugForCache d.remote =
        slugForCache c.remote ++ underscore :: (archMark ++ y))
      (harch : slugForCache c.arch =
        y ++ underscore :: (archPart d.arch ++ underscore :: (langMark ++ z)))
      (hlanguage : slugForCache d.language = z ++ underscore :: langPart c.language)

/-- A key, behind the installation. -/
def joined (c : Catalog) : DartString :=
  slugForCache c.remote ++ underscore :: (archPart c.arch ++ underscore :: langPart c.language)

theorem Regroups.joined_eq {c d : Catalog} (h : Regroups c d) : joined c = joined d := by
  rw [joined, joined]
  cases h with
  | archInRemote y hremote harch hlanguage =>
    have ha : archPart d.arch = (archMark ++ y) ++ underscore :: archPart c.arch :=
      archMarks.part_cut.mpr ⟨y, rfl, harch⟩
    have hl : langPart c.language = langPart d.language := langMarks.part_eq_iff.mpr hlanguage
    simp [hremote, ha, hl]
  | languageInArch z hremote hnamed harch hlanguage =>
    have ha' : archPart d.arch = archMark ++ slugForCache d.arch :=
      archMarks.part_eq_named.mpr ⟨hnamed, rfl⟩
    have ha : archPart c.arch = archPart d.arch ++ underscore :: (langMark ++ z) :=
      archMarks.part_cut.mpr ⟨slugForCache d.arch, ha', harch⟩
    have hl : langPart d.language =
        (langMark ++ z) ++ underscore :: langPart c.language :=
      langMarks.part_cut.mpr ⟨z, rfl, hlanguage⟩
    simp [hremote, ha, hl]
  | languageInRemote z hremote hlanguage =>
    have hl : langPart d.language = (langMark ++ z) ++
        underscore :: (archPart c.arch ++ underscore :: langPart c.language) :=
      langMarks.part_cut.mpr ⟨z, rfl, hlanguage⟩
    simp [hremote, hl]
  | both y v z hremote harch' harch hlanguage =>
    have ha' : archPart d.arch = (archMark ++ y) ++ underscore :: (archMark ++ v) :=
      archMarks.part_cut.mpr ⟨y, rfl, harch'⟩
    have ha : archPart c.arch = (archMark ++ v) ++ underscore :: (langMark ++ z) :=
      archMarks.part_cut.mpr ⟨v, rfl, harch⟩
    have hl : langPart d.language =
        (langMark ++ z) ++ underscore :: langPart c.language :=
      langMarks.part_cut.mpr ⟨z, rfl, hlanguage⟩
    simp [hremote, ha', ha, hl]
  | archInArch y z hremote harch hlanguage =>
    have ha : archPart c.arch = (archMark ++ y) ++
        underscore :: (archPart d.arch ++ underscore :: (langMark ++ z)) :=
      archMarks.part_cut.mpr ⟨y, rfl, harch⟩
    have hl : langPart d.language =
        (langMark ++ z) ++ underscore :: langPart c.language :=
      langMarks.part_cut.mpr ⟨z, rfl, hlanguage⟩
    simp [hremote, ha, hl]

/-- Two keys with the same language part. -/
theorem same_language {c d : Catalog} (hlanguage : langPart c.language = langPart d.language)
    (h : slugForCache c.remote ++ underscore :: archPart c.arch =
      slugForCache d.remote ++ underscore :: archPart d.arch) :
    SameSlugs c d ∨ Regroups c d ∨ Regroups d c := by
  have hslug := langMarks.part_eq_iff.mp hlanguage
  rcases cut_eq_cut.mp h with ⟨hremote, harch⟩ | ⟨m, hremote, harch⟩ | ⟨m, hremote, harch⟩
  · exact .inl ⟨hremote, archMarks.part_eq_iff.mp harch, hslug⟩
  · obtain ⟨y, rfl, hcut⟩ := archMarks.part_cut.mp harch
    exact .inr (.inl (.archInRemote y hremote hcut hslug))
  · obtain ⟨y, rfl, hcut⟩ := archMarks.part_cut.mp harch
    exact .inr (.inr (.archInRemote y hremote hcut hslug.symm))

/-- Two keys where the language part of the second begins earlier. -/
theorem language_earlier {c d : Catalog} {m : DartString}
    (hlanguage : langPart d.language = m ++ underscore :: langPart c.language)
    (h : slugForCache c.remote ++ underscore :: archPart c.arch =
      (slugForCache d.remote ++ underscore :: archPart d.arch) ++ underscore :: m) :
    Regroups c d := by
  obtain ⟨z, rfl, hz⟩ := langMarks.part_cut.mp hlanguage
  rw [List.append_assoc, List.cons_append] at h
  rcases cut_eq_cut.mp h with ⟨hremote, harch⟩ | ⟨n, hremote, harch⟩ | ⟨n, hremote, harch⟩
  · obtain ⟨w, hw, hcut⟩ := archMarks.part_cut.mp harch
    obtain ⟨hnamed, rfl⟩ := archMarks.part_eq_named.mp hw
    exact .languageInArch z hremote hnamed hcut hz
  · -- the arch of `c` begins somewhere behind the remote of `d`
    rcases cut_eq_cut.mp harch with ⟨-, hlang⟩ | ⟨k, hk, hrest⟩ | ⟨k, rfl, hlang⟩
    · exact absurd hlang (langMark_ne_archPart z c.arch)
    · obtain ⟨y, rfl, hy⟩ := archMarks.part_cut.mp hk
      obtain ⟨v, rfl, hv⟩ := archMarks.part_cut.mp hrest
      exact .both y v z hremote hy hv hz
    · obtain ⟨w, rfl, rfl⟩ := (cut_after_beginning (by decide)).mp hlang
      refine .languageInRemote w hremote ?_
      rw [hz]
      simp
  · obtain ⟨y, rfl, hy⟩ := archMarks.part_cut.mp harch
    exact .archInArch y z hremote hy hz

theorem parts_eq_iff (c d : Catalog) :
    joined c = joined d ↔ SameSlugs c d ∨ Regroups c d ∨ Regroups d c := by
  constructor
  · intro h
    have hjoined : ∀ e : Catalog, joined e =
        (slugForCache e.remote ++ underscore :: archPart e.arch) ++
          underscore :: langPart e.language := fun e => by simp [joined]
    rw [hjoined, hjoined] at h
    rcases cut_eq_cut.mp h with ⟨hbefore, hlanguage⟩ | ⟨m, hbefore, hlanguage⟩ |
      ⟨m, hbefore, hlanguage⟩
    · exact same_language hlanguage hbefore
    · exact .inr (.inl (language_earlier hlanguage hbefore))
    · exact .inr (.inr (language_earlier hlanguage hbefore))
  · rintro (⟨hremote, harch, hlanguage⟩ | h | h)
    · have ha : archPart c.arch = archPart d.arch := archMarks.part_eq_iff.mpr harch
      have hl : langPart c.language = langPart d.language := langMarks.part_eq_iff.mpr hlanguage
      rw [joined, joined, hremote, ha, hl]
    · exact h.joined_eq
    · exact h.joined_eq.symm

/-- **Two catalogs have different keys** exactly if they are of two installations, or
neither their slugs are the same nor one part reads on into the next. -/
theorem keys_differ_iff {c d : Catalog}
    (hfnv : fnv1a64 c.installationName = fnv1a64 d.installationName →
      c.installationName = d.installationName) :
    catalogCacheKey c ≠ catalogCacheKey d ↔
      c.installationName ≠ d.installationName ∨
        ¬ (SameSlugs c d ∨ Regroups c d ∨ Regroups d c) := by
  rw [← parts_eq_iff, ← not_and_or, not_iff_not]
  exact installKey_inj hfnv

/-- A catalog of the user's Flathub. -/
def flathub (arch language : DartString) : Catalog :=
  ⟨.lit "user", .lit "flathub", arch, language⟩

/-- Two installations whose paths have nearly the same letters, and two languages of one
installation, of which one reads on where the other ends. -/
theorem keys_differ_paths :
    catalogCacheKey ⟨.lit "/opt/a-b", .lit "flathub", [], []⟩ ≠
        catalogCacheKey ⟨.lit "/opt/ab", .lit "flathub", [], []⟩ ∧
      catalogCacheKey (flathub (.lit "x86_64") (.lit "de")) ≠
        catalogCacheKey (flathub (.lit "x86_64") (.lit "de_AT")) := by
  have hfnv : fnv1a64 (.lit "/opt/a-b") ≠ fnv1a64 (.lit "/opt/ab") := by decide +kernel
  have hparts : joined (flathub (.lit "x86_64") (.lit "de")) ≠
      joined (flathub (.lit "x86_64") (.lit "de_AT")) := by decide +kernel
  exact ⟨(keys_differ_iff fun h => absurd h hfnv).mpr (.inl (by decide)),
    (keys_differ_iff fun _ => by rfl).mpr (.inr ((parts_eq_iff _ _).not.mp hparts))⟩

/-- Two languages with one slug, and an arch that reads on like a language. -/
theorem different_catalogs_share_key :
    (flathub [] (.lit "ca@valencia") ≠ flathub [] (.lit "ca_valencia") ∧
        catalogCacheKey (flathub [] (.lit "ca@valencia")) =
          catalogCacheKey (flathub [] (.lit "ca_valencia"))) ∧
      flathub (.lit "arm_lang.de") [] ≠ flathub (.lit "arm") (.lit "de_srclang") ∧
        catalogCacheKey (flathub (.lit "arm_lang.de") []) =
          catalogCacheKey (flathub (.lit "arm") (.lit "de_srclang")) := by
  decide +kernel

end CacheKey
