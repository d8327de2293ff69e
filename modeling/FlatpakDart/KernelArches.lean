/-
What the kernel can execute through binfmt_misc, and so which apps can run
(`lib/src/arch.dart`, `lib/src/appstream/catalog.dart`).

A `Registration` is what the kernel keeps, and `Registration.print` the file it shows of
one; `Shows` says that a directory is the kernel's.

* `parseBinfmtHandler_registration` — a registration is read back from its file, with the
  architecture that its name stands for;
* `mem_kernelExecutableArches` — the arches that are found, by what is registered;
* `canRunArch_iff` — which apps can run, and that it is the registrations alone that
  matter.
-/
import FlatpakDart.ArchPolicy
import FlatpakDart.HostLaunch
import FlatpakDart.Separator
import Mathlib.Data.List.Infix

open InsertionOrder
open HostLaunch (trim)

namespace Arch

/-! ### Names of architectures -/

/-- `flatpakArchFor`. -/
def flatpakArchFor (machine : DartString) : Option DartString :=
  if machine ∈ ["x86_64", "amd64"].map DartString.lit then some (.lit "x86_64")
  else if machine ∈ ["i386", "i486", "i586", "i686"].map DartString.lit then some (.lit "i386")
  else if machine ∈ ["aarch64", "arm64"].map DartString.lit then some (.lit "aarch64")
  else if machine ∈ ["armv7l", "armv7hl", "armv6l", "arm"].map DartString.lit then
    some (.lit "arm")
  else if machine = .lit "riscv64" then some (.lit "riscv64")
  else if machine = .lit "loongarch64" then some (.lit "loongarch64")
  else if machine = .lit "ppc64le" then some (.lit "ppc64le")
  else if machine = .lit "s390x" then some (.lit "s390x")
  else none

/-- `hostFlatpakArch`; `uname` is what `uname -m` prints, null if it cannot be run. -/
def hostFlatpakArch (uname : Option DartString) : Option DartString :=
  uname.bind fun stdout => flatpakArchFor (trim stdout)

/-- `if (s.startsWith(start)) s = s.substring(start.length);` -/
def stripStart (start s : DartString) : DartString :=
  if start <+: s then s.drop start.length else s

/-- `if (s.endsWith(tail)) s = s.substring(0, s.length - tail.length);` -/
def stripEnd (tail s : DartString) : DartString :=
  if tail <:+ s then s.take (s.length - tail.length) else s

/-- What `_archForHandler` looks up for a candidate. -/
def strip (candidate : DartString) : DartString :=
  stripEnd (.lit "-binfmt") (stripEnd (.lit "-static") (stripStart (.lit "qemu-") candidate))

/-- `_archForHandler`; `basename` is the one of `package:path`. -/
def archForHandler (basename : DartString → DartString) (name interpreter : DartString) :
    Option DartString :=
  [name, basename interpreter].findSome? fun candidate => flatpakArchFor (strip candidate)

/-- The machines that `flatpakArchFor` names. -/
def machines : List DartString :=
  ["x86_64", "amd64", "i386", "i486", "i586", "i686", "aarch64", "arm64", "armv7l", "armv7hl",
    "armv6l", "arm", "riscv64", "loongarch64", "ppc64le", "s390x"].map DartString.lit

theorem mem_machines {m a : DartString} (h : flatpakArchFor m = some a) : m ∈ machines := by
  by_contra hm
  have hnone : flatpakArchFor m = none := by
    simp only [machines, List.map_cons, List.map_nil, List.mem_cons, List.not_mem_nil, or_false,
      not_or] at hm
    simp [flatpakArchFor, hm]
  rw [hnone] at h
  cases h

theorem stripStart_cases (start s : DartString) :
    s = start ++ stripStart start s ∨ s = stripStart start s := by
  rw [stripStart]
  split
  · next h =>
    obtain ⟨rest, rfl⟩ := h
    exact .inl (by rw [List.drop_left])
  · exact .inr rfl

theorem stripEnd_cases (tail s : DartString) :
    s = stripEnd tail s ++ tail ∨ s = stripEnd tail s := by
  rw [stripEnd]
  split
  · next h =>
    obtain ⟨front, rfl⟩ := h
    exact .inl (by rw [List.length_append, Nat.add_sub_cancel, List.take_left])
  · exact .inr rfl

theorem stripStart_append (start s : DartString) : stripStart start (start ++ s) = s := by
  rw [stripStart, if_pos (List.prefix_append start s), List.drop_left]

theorem stripEnd_append (tail s : DartString) : stripEnd tail (s ++ tail) = s := by
  rw [stripEnd, if_pos (List.suffix_append s tail), List.length_append, Nat.add_sub_cancel,
    List.take_left]

/-- A name that stands for a machine: `qemu-` may come first, and `-binfmt` and `-static`
last. -/
def Names (s m : DartString) : Prop :=
  ∃ start ∈ [[], DartString.lit "qemu-"], ∃ binfmt ∈ [[], DartString.lit "-binfmt"],
    ∃ static ∈ [[], DartString.lit "-static"], s = start ++ (m ++ binfmt ++ static)

/-- No machine is called in a way that could be cut. -/
theorem machines_uncut : ∀ m ∈ machines,
    (∀ binfmt ∈ [[], DartString.lit "-binfmt"], ∀ static ∈ [[], DartString.lit "-static"],
      ¬ DartString.lit "qemu-" <+: m ++ binfmt ++ static) ∧
    (∀ binfmt ∈ [[], DartString.lit "-binfmt"], ¬ DartString.lit "-static" <:+ m ++ binfmt) ∧
    ¬ DartString.lit "-binfmt" <:+ m := by
  decide +kernel

theorem strip_of_names {s m : DartString} (hm : m ∈ machines) (h : Names s m) : strip s = m := by
  obtain ⟨hstart, hstatic, hbinfmt⟩ := machines_uncut m hm
  obtain ⟨start, hs, binfmt, hb, static, ht, rfl⟩ := h
  have hfront : stripStart (.lit "qemu-") (start ++ (m ++ binfmt ++ static)) =
      m ++ binfmt ++ static := by
    rcases List.mem_pair.mp hs with rfl | rfl
    · rw [List.nil_append, stripStart, if_neg (hstart binfmt hb static ht)]
    · exact stripStart_append _ _
  have htail : stripEnd (.lit "-static") (m ++ binfmt ++ static) = m ++ binfmt := by
    rcases List.mem_pair.mp ht with rfl | rfl
    · rw [List.append_nil, stripEnd, if_neg (hstatic binfmt hb)]
    · exact stripEnd_append _ _
  rw [strip, hfront, htail]
  rcases List.mem_pair.mp hb with rfl | rfl
  · rw [List.append_nil, stripEnd, if_neg hbinfmt]
  · exact stripEnd_append _ _

theorem names_strip (s : DartString) : Names s (strip s) := by
  have hpair : ∀ t : DartString, t ∈ [[], t] := fun t => List.mem_pair.mpr (.inr rfl)
  have hnil : ∀ t : DartString, [] ∈ [[], t] := fun t => List.mem_pair.mpr (.inl rfl)
  set front := stripStart (.lit "qemu-") s with hfront
  set middle := stripEnd (.lit "-static") front with hmiddle
  obtain ⟨binfmt, hb, hm⟩ : ∃ binfmt ∈ [[], DartString.lit "-binfmt"],
      middle = strip s ++ binfmt := by
    rcases stripEnd_cases (.lit "-binfmt") middle with h | h
    · exact ⟨_, hpair _, h⟩
    · exact ⟨_, hnil _, h.trans (List.append_nil _).symm⟩
  obtain ⟨static, ht, hf⟩ : ∃ static ∈ [[], DartString.lit "-static"],
      front = middle ++ static := by
    rcases stripEnd_cases (.lit "-static") front with h | h
    · exact ⟨_, hpair _, h⟩
    · exact ⟨_, hnil _, h.trans (List.append_nil _).symm⟩
  obtain ⟨start, hs, heq⟩ : ∃ start ∈ [[], DartString.lit "qemu-"], s = start ++ front := by
    rcases stripStart_cases (.lit "qemu-") s with h | h
    · exact ⟨_, hpair _, h⟩
    · exact ⟨_, hnil _, h⟩
  exact ⟨start, hs, binfmt, hb, static, ht, by rw [← hm, ← hf, ← heq]⟩

/-- The arch of a name: the one of the machine that it stands for. -/
theorem flatpakArchFor_strip {s a : DartString} :
    flatpakArchFor (strip s) = some a ↔ ∃ m, Names s m ∧ flatpakArchFor m = some a := by
  constructor
  · exact fun h => ⟨strip s, names_strip s, h⟩
  · rintro ⟨m, hnames, hm⟩
    rwa [strip_of_names (mem_machines hm) hnames]

/-- What the name stands for, or else the name of the interpreter. -/
theorem archForHandler_eq_some {basename : DartString → DartString}
    {name interpreter a : DartString} :
    archForHandler basename name interpreter = some a ↔
      (∃ m, Names name m ∧ flatpakArchFor m = some a) ∨
        (∀ m, Names name m → flatpakArchFor m = none) ∧
          ∃ m, Names (basename interpreter) m ∧ flatpakArchFor m = some a := by
  have hnone : flatpakArchFor (strip name) = none ↔
      ∀ m, Names name m → flatpakArchFor m = none := by
    rw [Option.eq_none_iff_forall_ne_some]
    simp only [ne_eq, flatpakArchFor_strip, not_exists, not_and]
    exact ⟨fun h m hm => Option.eq_none_iff_forall_ne_some.mpr fun a ha => h a m hm ha,
      fun h a m hm ha => by simp [h m hm] at ha⟩
  rw [← flatpakArchFor_strip, ← flatpakArchFor_strip, ← hnone, archForHandler]
  cases h : flatpakArchFor (strip name) with
  | some b => simp [h]
  | none => simp [h]

/-! ### Registrations -/

/-- `BinfmtHandler`. -/
structure BinfmtHandler where
  name : DartString
  arch : Option DartString
  interpreter : DartString
  enabled : Bool
  fixBinary : Bool

/-- The variables of the loop in `parseBinfmtHandler`. -/
structure Lines where
  enabled : Bool
  interpreter : DartString
  flags : DartString
  deriving DecidableEq

/-- One line. -/
def Lines.read (v : Lines) (line : DartString) : Lines :=
  let trimmed := trim line
  if trimmed = [] then v
  else if trimmed = .lit "enabled" then { v with enabled := true }
  else if DartString.lit "interpreter " <+: trimmed then
    { v with interpreter := trim (trimmed.drop (DartString.lit "interpreter ").length) }
  else if DartString.lit "flags:" <+: trimmed then
    { v with flags := trim (trimmed.drop (DartString.lit "flags:").length) }
  else v

/-- `'\n'` -/
def newline : UInt16 := 0x0A

/-- `parseBinfmtHandler`. -/
def parseBinfmtHandler (basename : DartString → DartString) (name contents : DartString) :
    BinfmtHandler :=
  let v := (contents.splitOn newline).foldl Lines.read ⟨false, [], []⟩
  { name
    arch := archForHandler basename name v.interpreter
    interpreter := v.interpreter
    enabled := v.enabled
    fixBinary := DartString.lit "F" <:+: v.flags }

/-- What a registration goes by: an extension, or bytes at an offset under a mask. -/
inductive Pattern
  | extension (text : DartString)
  | magic (offset : ℕ) (bytes : List UInt8) (mask : Option (List UInt8))

/-- A registration, as the kernel keeps it. -/
structure Registration where
  name : DartString
  enabled : Bool
  interpreter : DartString
  preserveArgv0 : Bool
  openBinary : Bool
  credentials : Bool
  fixBinary : Bool
  pattern : Pattern
  oneLine : newline ∉ interpreter
  oneLine' : ∀ text, pattern = .extension text → newline ∉ text

/-- Bytes in hexadecimal digits. -/
def hex (bytes : List UInt8) : DartString :=
  bytes.flatMap fun b => [b.toNat / 16, b.toNat % 16].flatMap fun d =>
    DartString.codeUnits (Nat.digitChar d)

/-- The flags that are set. -/
def Registration.flags (r : Registration) : DartString :=
  [(r.preserveArgv0, "P"), (r.openBinary, "O"), (r.credentials, "C"), (r.fixBinary, "F")].flatMap
    fun flag => if flag.1 then DartString.lit flag.2 else []

/-- The lines about the pattern. -/
def Pattern.lines : Pattern → List DartString
  | .extension text => [.lit "extension ." ++ text]
  | .magic offset bytes mask =>
    [.lit "offset " ++ HostLaunch.digits offset, .lit "magic " ++ hex bytes] ++
      (mask.map fun mask => .lit "mask " ++ hex mask).toList

/-- The lines of its file. -/
def Registration.lines (r : Registration) : List DartString :=
  [.lit (if r.enabled then "enabled" else "disabled"), .lit "interpreter " ++ r.interpreter,
    .lit "flags: " ++ r.flags] ++ r.pattern.lines

/-- Its file. -/
def Registration.print (r : Registration) : DartString := r.lines.flatMap (· ++ [newline])

/-! ### The lines are read back -/

/-- What `trim` takes away. -/
def isWhitespace (u : UInt16) : Bool := DartText.isWhitespace (Char.ofNat u.toNat)

/-- A word, and so without whitespace at its ends. -/
def Word (word : DartString) : Prop :=
  word ≠ [] ∧ word.head?.all (!isWhitespace ·) ∧ word.getLast?.all (!isWhitespace ·)

instance (word : DartString) : Decidable (Word word) := inferInstanceAs (Decidable (_ ∧ _ ∧ _))

/-- The word is still there when its line is trimmed, with the same value. -/
theorem trim_word {word : DartString} (h : Word word) (rest : DartString) :
    ∃ value, value <+: rest ∧ trim (word ++ rest) = word ++ value ∧ trim value = trim rest := by
  obtain ⟨hne, hhead, hlast⟩ := h
  refine Fields.trim_append hne ?_ rest
  rintro c (hc | hc)
  · show isWhitespace c = false
    simpa [hc] using hhead
  · show isWhitespace c = false
    simpa [hc] using hlast

theorem trim_space (s : DartString) : trim (0x20 :: s) = trim s := by
  have hspace : ∀ c ∈ ([0x20] : DartString), isWhitespace c = true := by
    intro c hc
    rw [List.mem_singleton.mp hc]
    decide +kernel
  have hnone : ∀ c ∈ ([] : DartString), isWhitespace c = true := by simp
  have h := Fields.trim_surround hspace hnone s
  rwa [List.append_nil] at h

/-- The words that lines are told apart by. -/
def keys : List DartString := ["enabled", "interpreter ", "flags:"].map DartString.lit

/-- A line that begins otherwise is passed over. -/
theorem read_other {word : DartString} (h : Word word)
    (hkeys : ∀ key ∈ keys, ¬ word <+: key ∧ ¬ key <+: word) (v : Lines) (rest : DartString) :
    v.read (word ++ rest) = v := by
  obtain ⟨value, -, htrim, -⟩ := trim_word h rest
  have hkey : ∀ key ∈ keys, ¬ key <+: word ++ value := fun key hkey hbegins =>
    (List.prefix_or_prefix_of_prefix (List.prefix_append word value) hbegins).elim
      (hkeys key hkey).1 (hkeys key hkey).2
  have hname : word ++ value ≠ .lit "enabled" := fun heq =>
    hkey (.lit "enabled") (by simp [keys]) (heq ▸ List.prefix_refl _)
  rw [Lines.read, htrim, if_neg hname, if_neg (hkey _ (by simp [keys])),
    if_neg (hkey _ (by simp [keys])), ite_self]

/-- The line about the interpreter. -/
theorem read_interpreter {v : Lines} (hv : v.interpreter = []) (i : DartString) :
    v.read (DartString.lit "interpreter " ++ i) = { v with interpreter := trim i } := by
  have hspace : DartString.lit "interpreter " = DartString.lit "interpreter" ++ [0x20] := by
    decide +kernel
  have hkey : ∀ value : DartString, DartString.lit "interpreter" ++ 0x20 :: value =
      DartString.lit "interpreter " ++ value := fun value => by
    rw [hspace, List.append_assoc, List.singleton_append]
  obtain ⟨value, hvalue, htrim, hsame⟩ :=
    trim_word (show Word (.lit "interpreter") by decide +kernel) (0x20 :: i)
  rw [hkey] at htrim
  rw [trim_space] at hsame
  rw [Lines.read, htrim]
  cases value with
  | nil =>
    -- a path of spaces leaves the key without the space behind it
    rw [List.append_nil, if_neg (by decide), if_neg (by decide +kernel),
      if_neg (by decide +kernel), if_neg (by decide +kernel), ← hsame]
    exact congrArg (fun i => Lines.mk v.enabled i v.flags) hv
  | cons c value =>
    obtain rfl : c = 0x20 := (List.cons_prefix_cons.mp hvalue).1
    have hname : DartString.lit "interpreter " ++ value ≠ DartString.lit "enabled" := fun h =>
      absurd (h ▸ List.prefix_append (DartString.lit "interpreter ") value) (by decide +kernel)
    rw [trim_space] at hsame
    rw [hkey, if_neg (List.append_ne_nil_of_left_ne_nil (by decide) _), if_neg hname,
      if_pos (List.prefix_append _ _), List.drop_left, hsame]

/-- The line about the flags. -/
theorem read_flags (v : Lines) (flags : DartString) :
    v.read (DartString.lit "flags:" ++ flags) = { v with flags := trim flags } := by
  obtain ⟨value, -, htrim, hsame⟩ :=
    trim_word (show Word (.lit "flags:") by decide +kernel) flags
  have hkey : ∀ key : DartString, ¬ key <+: DartString.lit "flags:" →
      ¬ DartString.lit "flags:" <+: key → ¬ key <+: DartString.lit "flags:" ++ value :=
    fun key h h' hbegins =>
      (List.prefix_or_prefix_of_prefix (List.prefix_append _ value) hbegins).elim h' h
  have hname : DartString.lit "flags:" ++ value ≠ DartString.lit "enabled" := fun h =>
    absurd (h ▸ List.prefix_append (DartString.lit "flags:") value) (by decide +kernel)
  rw [Lines.read, htrim, if_neg (List.append_ne_nil_of_left_ne_nil (by decide) _), if_neg hname,
    if_neg (hkey (DartString.lit "interpreter ") (by decide +kernel) (by decide +kernel)),
    if_pos (List.prefix_append _ _), List.drop_left, hsame]

/-- The lines about the pattern are passed over. -/
theorem read_pattern (v : Lines) (p : Pattern) : ∀ line ∈ p.lines, v.read line = v := by
  have hother : ∀ (word key value : DartString), key = word ++ [0x20] → Word word →
      (∀ key ∈ keys, ¬ word <+: key ∧ ¬ key <+: word) → v.read (key ++ value) = v := by
    rintro word key value rfl hword hkeys
    rw [List.append_assoc]
    exact read_other hword hkeys v _
  cases p with
  | extension text =>
    intro line hline
    rw [List.mem_singleton.mp hline]
    have hword : Word (.lit "extension .") := by decide +kernel
    exact read_other hword (by decide +kernel) v text
  | magic offset bytes mask =>
    have hmask : ∀ mask, v.read (DartString.lit "mask " ++ hex mask) = v := fun mask =>
      hother (.lit "mask") _ _ (by decide +kernel) (by decide +kernel) (by decide +kernel)
    simp only [Pattern.lines, List.cons_append, List.nil_append, List.mem_cons,
      Option.mem_toList, Option.map_eq_some_iff, forall_eq_or_imp, forall_exists_index, and_imp]
    refine ⟨?_, ?_, ?_⟩
    · exact hother (.lit "offset") _ _ (by decide +kernel) (by decide +kernel) (by decide +kernel)
    · exact hother (.lit "magic") _ _ (by decide +kernel) (by decide +kernel) (by decide +kernel)
    · rintro _ mask - rfl
      exact hmask mask

/-- The flags read back. -/
theorem trim_flags (r : Registration) : trim (0x20 :: r.flags) = r.flags ∧
    (DartString.lit "F" <:+: r.flags ↔ r.fixBinary = true) := by
  have h : ∀ p o c f : Bool, ∀ flags : DartString,
      flags = ([(p, "P"), (o, "O"), (c, "C"), (f, "F")].flatMap fun flag =>
        if flag.1 then DartString.lit flag.2 else []) →
      trim (0x20 :: flags) = flags ∧ (DartString.lit "F" <:+: flags ↔ f = true) := by
    rintro p o c f _ rfl
    revert p o c f
    decide +kernel
  exact h _ _ _ _ _ rfl

/-! ### No line of a file is two -/

theorem newline_not_mem_hex (bytes : List UInt8) : newline ∉ hex bytes := by
  have hdigit : ∀ d < 16, newline ∉ DartString.codeUnits (Nat.digitChar d) := by decide +kernel
  intro h
  obtain ⟨b, -, hb⟩ := List.mem_flatMap.mp h
  obtain ⟨d, hd, h⟩ := List.mem_flatMap.mp hb
  refine hdigit d ?_ h
  have := b.toNat_lt
  rcases List.mem_pair.mp hd with rfl | rfl
  · omega
  · omega

theorem newline_not_mem_digits (n : ℕ) : newline ∉ HostLaunch.digits n := by
  intro h
  obtain ⟨c, hc, h⟩ := List.mem_flatMap.mp h
  rw [String.toList_ofList] at hc
  rcases DartText.mem_decimal hc with rfl | hdigit
  · exact absurd h (by decide)
  · obtain ⟨hlow, hhigh⟩ := DartText.isDigit_bounds hdigit
    have hval : c.val.toNat = c.toNat := rfl
    have hsmall : c.val < 0x10000 := by
      rw [UInt32.lt_iff_toNat_lt, hval]
      exact Nat.lt_of_le_of_lt hhigh (by decide)
    rw [DartString.codeUnits, if_pos hsmall, List.mem_singleton] at h
    have hunit := congrArg UInt16.toNat h
    rw [UInt32.toNat_toUInt16, hval] at hunit
    have hnewline : newline.toNat = 10 := rfl
    omega

theorem newline_not_mem_lines (r : Registration) : ∀ line ∈ r.lines, newline ∉ line := by
  have happend : ∀ key rest : DartString, newline ∉ key → newline ∉ rest → newline ∉ key ++ rest :=
    fun key rest h h' => by simp [h, h']
  have hflags : newline ∉ r.flags := by
    intro h
    obtain ⟨flag, hflag, h⟩ := List.mem_flatMap.mp h
    have hletters : ∀ letter ∈ ["P", "O", "C", "F"], newline ∉ DartString.lit letter := by decide
    have hmem : flag.2 ∈ ["P", "O", "C", "F"] := by
      simpa using (List.mem_map_of_mem hflag : flag.2 ∈ List.map Prod.snd _)
    split at h
    · exact hletters flag.2 hmem h
    · cases h
  have hpattern : ∀ line ∈ r.pattern.lines, newline ∉ line := by
    cases hp : r.pattern with
    | extension text =>
      intro line hline
      rw [List.mem_singleton.mp hline]
      exact happend _ _ (by decide +kernel) (r.oneLine' text hp)
    | magic offset bytes mask =>
      simp only [Pattern.lines, List.cons_append, List.nil_append, List.mem_cons,
        Option.mem_toList, Option.map_eq_some_iff, forall_eq_or_imp, forall_exists_index, and_imp]
      refine ⟨?_, ?_, ?_⟩
      · exact happend _ _ (by decide +kernel) (newline_not_mem_digits offset)
      · exact happend _ _ (by decide +kernel) (newline_not_mem_hex bytes)
      · rintro _ mask - rfl
        exact happend _ _ (by decide +kernel) (newline_not_mem_hex mask)
  simp only [Registration.lines, List.cons_append, List.nil_append, List.mem_cons,
    forall_eq_or_imp]
  refine ⟨?_, ?_, ?_, hpattern⟩
  · cases r.enabled
    · decide +kernel
    · decide +kernel
  · exact happend _ _ (by decide +kernel) r.oneLine
  · exact happend _ _ (by decide +kernel) hflags

/-- A registration is read back from its file, its path without spaces around it. -/
theorem parseBinfmtHandler_print (basename : DartString → DartString) (name : DartString)
    (r : Registration) : parseBinfmtHandler basename name r.print =
      { name
        arch := archForHandler basename name (trim r.interpreter)
        interpreter := trim r.interpreter
        enabled := r.enabled
        fixBinary := r.fixBinary } := by
  obtain ⟨hflags, hfix⟩ := trim_flags r
  have hpassed : ∀ (v : Lines), (r.pattern.lines ++ [[]]).foldl Lines.read v = v := by
    intro v
    refine List.foldlRecOn (motive := (· = v)) _ _ rfl ?_
    rintro _ rfl line hline
    rcases List.mem_append.mp hline with hline | hline
    · exact read_pattern _ _ line hline
    · rw [List.mem_singleton.mp hline]
      rfl
  have hstatus : Lines.read ⟨false, [], []⟩
      (DartString.lit (if r.enabled then "enabled" else "disabled")) = ⟨r.enabled, [], []⟩ := by
    cases r.enabled
    · decide +kernel
    · decide +kernel
  have hspace : DartString.lit "flags: " ++ r.flags =
      DartString.lit "flags:" ++ (0x20 :: r.flags) := by
    have h : DartString.lit "flags: " = DartString.lit "flags:" ++ [0x20] := by decide +kernel
    rw [h, List.append_assoc, List.singleton_append]
  rw [parseBinfmtHandler, Registration.print, Separator.splitOn_lines (newline_not_mem_lines r),
    Registration.lines, List.append_assoc, List.cons_append, List.cons_append, List.cons_append,
    List.nil_append, List.foldl_cons, List.foldl_cons, List.foldl_cons, hstatus,
    read_interpreter rfl, hspace, read_flags, hflags, hpassed]
  simp only [hfix, Bool.decide_eq_true]

/-- **The file of a registration**: it reads back as what is registered, and its
architecture is the one that its name stands for, or else the name of its interpreter;
nothing else is taken for an architecture. -/
theorem parseBinfmtHandler_registration (basename : DartString → DartString) (name : DartString)
    (r : Registration) :
    (parseBinfmtHandler basename name r.print).enabled = r.enabled ∧
    (parseBinfmtHandler basename name r.print).fixBinary = r.fixBinary ∧
    (parseBinfmtHandler basename name r.print).interpreter = trim r.interpreter ∧
    ∀ a, (parseBinfmtHandler basename name r.print).arch = some a ↔
      (∃ m, Names name m ∧ flatpakArchFor m = some a) ∨
        (∀ m, Names name m → flatpakArchFor m = none) ∧
          ∃ m, Names (basename (trim r.interpreter)) m ∧ flatpakArchFor m = some a := by
  rw [parseBinfmtHandler_print]
  exact ⟨rfl, rfl, rfl, fun a => archForHandler_eq_some⟩

/-! ### What is registered -/

/-- An entry of the directory. -/
structure BinfmtEntry where
  path : DartString
  isFile : Bool

/-- The directory of binfmt_misc, as it is found. -/
structure BinfmtDir where
  present : Bool
  /-- `listSync`, which may throw -/
  entries : Option (List BinfmtEntry)
  /-- `readAsStringSync` of a path, which may throw -/
  contents : DartString → Option DartString

/-- `_binfmtEntries`. -/
def binfmtEntries (dir : BinfmtDir) : List BinfmtEntry := (dir.entries.getD []).filter (·.isFile)

section

variable (basename : DartString → DartString) (interpreterExists : DartString → Bool)

/-- What one entry adds. -/
def executableArch (dir : BinfmtDir) (entry : BinfmtEntry) : Option DartString :=
  let name := basename entry.path
  -- control files, not registrations
  if name = .lit "status" ∨ name = .lit "register" then none
  else
    match dir.contents entry.path with
    | none => none
    | some contents =>
      let handler := parseBinfmtHandler basename name contents
      if handler.arch = none ∨ !handler.enabled ∨ !handler.fixBinary then none
      else if handler.interpreter = [] ∨ !interpreterExists handler.interpreter then none
      else handler.arch

/-- `kernelExecutableArches`. -/
def kernelExecutableArches (dir : BinfmtDir) : LinkedSet DartString :=
  if !dir.present then .ofList []
  else .ofList ((binfmtEntries dir).filterMap (executableArch basename interpreterExists dir))

/-- The kernel runs the binaries of an architecture with this registration, from within a
sandbox too. -/
def Registration.Executes (r : Registration) (arch : DartString) : Prop :=
  r.enabled ∧ r.fixBinary ∧ trim r.interpreter ≠ [] ∧ interpreterExists (trim r.interpreter) ∧
    archForHandler basename r.name (trim r.interpreter) = some arch

/-- The directory is the one of a kernel with these registrations: each has its file, and
any other file is a control file or cannot be read. -/
structure Shows (kernel : List Registration) (dir : BinfmtDir) : Prop where
  present : dir.present = true
  file : ∀ r ∈ kernel, ∃ entry ∈ binfmtEntries dir,
    basename entry.path = r.name ∧ dir.contents entry.path = some r.print
  only : ∀ entry ∈ binfmtEntries dir,
    (basename entry.path = .lit "status" ∨ basename entry.path = .lit "register") ∨
      dir.contents entry.path = none ∨
        ∃ r ∈ kernel, basename entry.path = r.name ∧ dir.contents entry.path = some r.print
  control : ∀ r ∈ kernel, r.name ≠ .lit "status" ∧ r.name ≠ .lit "register"

end

variable {basename : DartString → DartString} {interpreterExists : DartString → Bool}
  {kernel : List Registration} {dir : BinfmtDir}

theorem executableArch_registration {entry : BinfmtEntry} {r : Registration}
    (hname : basename entry.path = r.name)
    (hcontrol : r.name ≠ .lit "status" ∧ r.name ≠ .lit "register")
    (hcontents : dir.contents entry.path = some r.print) (arch : DartString) :
    executableArch basename interpreterExists dir entry = some arch ↔
      r.Executes basename interpreterExists arch := by
  simp only [executableArch, hname, hcontents, parseBinfmtHandler_print,
    if_neg (not_or.mpr hcontrol), Registration.Executes]
  split_ifs with h h'
  · refine iff_of_false (by simp) ?_
    rintro ⟨henabled, hfix, -, -, harch⟩
    simp [henabled, hfix, harch] at h
  · refine iff_of_false (by simp) ?_
    rintro ⟨-, -, hpath, hexists, -⟩
    simp [hpath, hexists] at h'
  · simp only [not_or, Bool.not_eq_true', Bool.not_eq_false] at h h'
    exact ⟨fun harch => ⟨h.2.1, h.2.2, h'.1, h'.2, harch⟩, fun h => h.2.2.2.2⟩

/-- What is found is what is registered, wherever it is listed. -/
theorem mem_kernelExecutableArches (h : Shows basename kernel dir) {arch : DartString} :
    arch ∈ kernelExecutableArches basename interpreterExists dir ↔
      ∃ r ∈ kernel, r.Executes basename interpreterExists arch := by
  rw [kernelExecutableArches, h.present, Bool.not_true, if_neg Bool.false_ne_true,
    LinkedSet.mem_ofList, List.mem_filterMap]
  constructor
  · rintro ⟨entry, hentry, harch⟩
    rcases h.only entry hentry with hcontrol | hunreadable | ⟨r, hr, hname, hcontents⟩
    · simp [executableArch, hcontrol] at harch
    · simp [executableArch, hunreadable] at harch
    · exact ⟨r, hr, (executableArch_registration hname (h.control r hr) hcontents arch).mp harch⟩
  · rintro ⟨r, hr, hexecutes⟩
    obtain ⟨entry, hentry, hname, hcontents⟩ := h.file r hr
    exact ⟨entry, hentry,
      (executableArch_registration hname (h.control r hr) hcontents arch).mpr hexecutes⟩

/-! ### Which apps can run -/

/-- `isRunnableArch`. -/
def isRunnableArch (arch : DartString) (policy : ArchPolicy) (hostArch : Option DartString)
    (executableArches : LinkedSet DartString) : Bool :=
  (candidateArches policy hostArch executableArches).contains arch

/-- `FlatpakAppStream.canRunArch`. -/
def FlatpakAppStream.canRunArch (s : FlatpakAppStream) (arch : DartString) : Bool :=
  s.candidates.contains arch

theorem canRunArch_eq (s : FlatpakAppStream) (arch : DartString) :
    s.canRunArch arch = isRunnableArch arch s.archPolicy s.hostArch s.executableArches := rfl

theorem isRunnableArch_iff {arch host : DartString} {policy : ArchPolicy}
    {executable : LinkedSet DartString} :
    isRunnableArch arch policy (some host) executable = true ↔
      arch = host ∨ (policy ≠ .native ∧ arch ∈ compatibleArches host) ∨
        (policy = .emulated ∧ arch ∈ executable) := by
  rw [isRunnableArch, List.contains_iff_mem]
  cases policy with
  | native => simp [candidateArches_native]
  | compatible => simp [candidateArches_compatible]
  | emulated => simp [mem_candidateArches_emulated]

/-- **Which apps can run**: those for the host, those that the host runs by itself unless
only its own are wanted, and, where emulation is, those that the kernel has an enabled
registration for, one that keeps its interpreter open and has it.  Only the registrations
matter: not the order in which they are listed, nor what else is in the directory. -/
theorem canRunArch_iff (h : Shows basename kernel dir) (s : FlatpakAppStream)
    (hscan : s.executableArches = kernelExecutableArches basename interpreterExists dir) :
    (∀ host, s.hostArch = some host → ∀ arch, s.canRunArch arch = true ↔
      arch = host ∨ (s.archPolicy ≠ .native ∧ arch ∈ compatibleArches host) ∨
        (s.archPolicy = .emulated ∧
          ∃ r ∈ kernel, r.Executes basename interpreterExists arch)) ∧
    (s.hostArch = none → ∀ arch, s.canRunArch arch = false) ∧
    ∀ dir', Shows basename kernel dir' → ∀ s' : FlatpakAppStream,
      s'.executableArches = kernelExecutableArches basename interpreterExists dir' →
      s'.archPolicy = s.archPolicy → s'.hostArch = s.hostArch → s'.candidates = s.candidates := by
  refine ⟨fun host hhost arch => ?_, fun hhost arch => ?_,
    fun dir' h' s' hscan' hpolicy hhost => ?_⟩
  · rw [canRunArch_eq, hhost, isRunnableArch_iff, hscan, mem_kernelExecutableArches h]
  · rw [canRunArch_eq, hhost]
    rfl
  · rw [FlatpakAppStream.candidates, FlatpakAppStream.candidates, hpolicy, hhost]
    refine candidateArches_of_perm (fun a => ?_) _ _
    rw [hscan, hscan', mem_kernelExecutableArches h, mem_kernelExecutableArches h']

/-- The part of a path behind its last slash. -/
def fileName (path : DartString) : DartString := ((path.splitOn 0x2F).getLast?).getD []

/-- The emulator that a package of qemu registers. -/
def qemuAarch64 : Registration where
  name := .lit "qemu-aarch64"
  enabled := true
  interpreter := .lit "/usr/bin/qemu-aarch64-static"
  preserveArgv0 := false
  openBinary := true
  credentials := false
  fixBinary := true
  pattern := .magic 0 [0x7F, 0x45, 0x4C, 0x46] (some [0xFF, 0xFF, 0xFF, 0xFF])
  oneLine := by decide +kernel
  oneLine' text h := by cases h

def statusPath : DartString := .lit "/proc/sys/fs/binfmt_misc/status"

def qemuPath : DartString := .lit "/proc/sys/fs/binfmt_misc/qemu-aarch64"

/-- Its directory. -/
def binfmtMisc : BinfmtDir where
  present := true
  entries := some [⟨statusPath, true⟩, ⟨qemuPath, true⟩]
  contents path := if path = qemuPath then some qemuAarch64.print else some (.lit "enabled\n")

theorem binfmtMisc_contents : binfmtMisc.contents qemuPath = some qemuAarch64.print := by
  simp [binfmtMisc]

theorem binfmtMisc_shows : Shows fileName [qemuAarch64] binfmtMisc where
  present := rfl
  file r hr := by
    rw [List.mem_singleton.mp hr]
    exact ⟨⟨qemuPath, true⟩, by simp [binfmtEntries, binfmtMisc], by decide +kernel,
      binfmtMisc_contents⟩
  only entry hentry := by
    have hmem : entry = ⟨statusPath, true⟩ ∨ entry = ⟨qemuPath, true⟩ := by
      simpa [binfmtEntries, binfmtMisc] using hentry
    rcases hmem with rfl | rfl
    · exact .inl (.inl (by decide +kernel))
    · exact .inr (.inr ⟨qemuAarch64, List.mem_singleton_self _, by decide +kernel,
        binfmtMisc_contents⟩)
  control r hr := by
    rw [List.mem_singleton.mp hr]
    decide +kernel

/-- An x86_64 host on which it is registered. -/
def emulatingHost : FlatpakAppStream where
  installationPath := .lit "/var/lib/flatpak"
  archPolicy := .emulated
  hostArch := some (.lit "x86_64")
  executableArches := kernelExecutableArches fileName (fun _ => true) binfmtMisc

/-- Its apps for aarch64 can run, those for riscv64 cannot. -/
theorem canRunArch_iff_qemu : emulatingHost.canRunArch (.lit "aarch64") = true ∧
    emulatingHost.canRunArch (.lit "riscv64") = false := by
  obtain ⟨hruns, -, -⟩ := canRunArch_iff binfmtMisc_shows emulatingHost rfl
  have hexecutes : ∀ arch, qemuAarch64.Executes fileName (fun _ => true) arch ↔
      DartString.lit "aarch64" = arch := fun arch => by
    have harch : archForHandler fileName qemuAarch64.name (trim qemuAarch64.interpreter) =
        some (.lit "aarch64") := by decide +kernel
    have hpath : trim qemuAarch64.interpreter ≠ [] := by decide +kernel
    rw [Registration.Executes, harch, Option.some.injEq]
    exact ⟨fun h => h.2.2.2.2, fun h => ⟨rfl, rfl, hpath, rfl, h⟩⟩
  constructor
  · refine (hruns _ rfl _).mpr (.inr (.inr ⟨rfl, qemuAarch64, List.mem_singleton_self _, ?_⟩))
    exact (hexecutes _).mpr rfl
  · refine Bool.eq_false_iff.mpr fun h => ?_
    rcases (hruns _ rfl _).mp h with h | ⟨-, h⟩ | ⟨-, r, hr, h⟩
    · exact absurd h (by decide +kernel)
    · exact absurd h (by decide +kernel)
    · rw [List.mem_singleton.mp hr, hexecutes] at h
      exact absurd h (by decide +kernel)

end Arch
