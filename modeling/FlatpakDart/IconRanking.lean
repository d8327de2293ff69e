/-
Which icon an installed app gets (`lib/src/appstream/installed_icons.dart`).

The icons of one root are looked for from the scalable one down, and the second root is
looked into after all of the first.

* `firstUnder_best` — so under one root the best icon is found;
* `bestIcon_iff` — and of all icons the best one, exactly if the second root has none
  that ranks above all those of the first.
-/
import FlatpakDart.InstalledIcons
import Mathlib.Order.WithBot

namespace InstalledIcons

/-! ### What is searched -/

/-- A hicolor icon that is looked for; scalable ranks above every size. -/
structure Searched where
  path : DartString
  rank : WithTop ℕ

/-- The folders of raster icons, and the size of these. -/
def folders : List (DartString × ℕ) := sizes.zip [512, 256, 128, 96, 64, 48, 32, 24, 16]

def filesRoot : DartString := .lit "files/share/icons/hicolor"

def exportRoot : DartString := .lit "export/share/icons/hicolor"

/-- The icons looked for under a root; without a directory there are none. -/
def iconsUnder (host : Host) (deployDir appId root : DartString) : List Searched :=
  if deployDir.isEmpty then []
  else
    ⟨svgFile host deployDir appId root, ⊤⟩ ::
      folders.map fun folder => ⟨pngFile host deployDir appId root folder.1, .some folder.2⟩

/-- The hicolor icons, as they are looked for. -/
def hicolor (host : Host) (deployDir appId : DartString) : List Searched :=
  iconsUnder host deployDir appId filesRoot ++ iconsUnder host deployDir appId exportRoot

/-- The app-info icons. -/
def appInfo (host : Host) (deployDir appId : DartString) : List DartString :=
  if deployDir.isEmpty then [] else appInfoFiles host deployDir appId

/-- The icon is there. -/
def Searched.Found (host : Host) (c : Searched) : Prop := host.existsSync c.path = true

/-- The result is the best icon there is, and null if there is none. -/
structure BestIcon (host : Host) (deployDir appId : DartString) : Prop where
  none_iff : resolveInstalledIconPath host deployDir appId = none ↔
    (∀ c ∈ hicolor host deployDir appId, ¬ c.Found host) ∧
      ∀ file ∈ appInfo host deployDir appId, host.existsSync file = false
  there : ∀ icon, resolveInstalledIconPath host deployDir appId = some icon →
    host.existsSync icon = true
  best : ∀ icon, resolveInstalledIconPath host deployDir appId = some icon →
    (∃ c ∈ hicolor host deployDir appId, c.path = icon ∧
      ∀ d ∈ hicolor host deployDir appId, d.Found host → d.rank ≤ c.rank) ∨
    (icon ∈ appInfo host deployDir appId ∧
      ∀ d ∈ hicolor host deployDir appId, ¬ d.Found host)

/-- If the first root has an icon at all, it has one as good as any of the second. -/
def FirstRootLeads (host : Host) (deployDir appId : DartString) : Prop :=
  (∃ c ∈ iconsUnder host deployDir appId filesRoot, c.Found host) →
    ∀ d ∈ iconsUnder host deployDir appId exportRoot, d.Found host →
      ∃ c ∈ iconsUnder host deployDir appId filesRoot, c.Found host ∧ d.rank ≤ c.rank

instance (host : Host) (d : Searched) : Decidable (d.Found host) :=
  inferInstanceAs (Decidable (_ = true))

instance (host : Host) (deployDir appId : DartString) :
    Decidable (FirstRootLeads host deployDir appId) :=
  inferInstanceAs (Decidable (_ → _))

/-- A part of a path that has a slash at neither end. -/
def Plain (part : DartString) : Prop :=
  part ≠ [] ∧ part.head? ≠ some 0x2F ∧ part.getLast? ≠ some 0x2F

instance : DecidablePred Plain := fun _ => inferInstanceAs (Decidable (_ ∧ _ ∧ _))

/-- What `p.join` does of its parts: an absolute part stands for all that comes before
it, and between relative ones there is a slash. -/
structure PathJoin (join : List DartString → DartString) : Prop where
  absolute : ∀ parts file, file.head? = some 0x2F → join (parts ++ [file]) = file
  relative : ∀ dir parts, dir ≠ [] → parts ≠ [] →
    (∀ p ∈ parts, Plain p) → join (dir :: parts) =
      dir ++ (if dir.getLast? = some 0x2F then [] else [0x2F]) ++ List.intercalate [0x2F] parts

/-! ### The search -/

variable {host : Host} {deployDir appId : DartString}

/-- The first match in a list that goes down in rank is the best one. -/
theorem rank_le_of_find? {α R : Type*} [Preorder R] {rank : α → R} {l : List α} {p : α → Bool}
    {c : α} (hdown : l.Pairwise fun a b => rank b ≤ rank a) (h : l.find? p = some c) :
    ∀ d ∈ l, p d = true → rank d ≤ rank c := by
  obtain ⟨-, front, back, rfl, hfront⟩ := List.find?_eq_some_iff_append.mp h
  intro d hd hp
  rcases List.mem_append.mp hd with hd | hd
  · exact absurd hp (by simpa using hfront d hd)
  · rcases List.mem_cons.mp hd with rfl | hd
    · exact le_rfl
    · exact (List.pairwise_cons.mp (List.pairwise_append.mp hdown).2.1).1 d hd

theorem iconsUnder_down (host : Host) (deployDir appId root : DartString) :
    (iconsUnder host deployDir appId root).Pairwise fun a b => b.rank ≤ a.rank := by
  have hranks : ((⊤ : WithTop ℕ) :: folders.map fun folder => WithTop.some folder.2).Pairwise
      fun a b => b ≤ a := by decide
  rw [iconsUnder]
  split
  · exact .nil
  · refine List.Pairwise.of_map Searched.rank (fun _ _ h => h) ?_
    rw [List.map_cons, List.map_map]
    exact hranks

/-- The icon found under a root. -/
def firstUnder (host : Host) (deployDir appId root : DartString) : Option Searched :=
  (iconsUnder host deployDir appId root).find? fun c => host.existsSync c.path

theorem firstUnder_found {root : DartString} {c : Searched}
    (h : firstUnder host deployDir appId root = some c) :
    c ∈ iconsUnder host deployDir appId root ∧ c.Found host := by
  have hfound := List.find?_some h
  exact ⟨List.mem_of_find?_eq_some h, hfound⟩

/-- **The best icon of a root** is found. -/
theorem firstUnder_best {root : DartString} {c : Searched}
    (h : firstUnder host deployDir appId root = some c) :
    ∀ d ∈ iconsUnder host deployDir appId root, d.Found host → d.rank ≤ c.rank :=
  rank_le_of_find? (iconsUnder_down host deployDir appId root) h

theorem firstUnder_none {root : DartString} (h : firstUnder host deployDir appId root = none) :
    ∀ d ∈ iconsUnder host deployDir appId root, ¬ d.Found host :=
  List.find?_eq_none.mp h

theorem resolve_eq (host : Host) (deployDir appId : DartString) :
    resolveInstalledIconPath host deployDir appId =
      (((firstUnder host deployDir appId filesRoot).or
        (firstUnder host deployDir appId exportRoot)).map Searched.path).or
          ((appInfo host deployDir appId).find? host.existsSync) := by
  rw [resolveInstalledIconPath]
  by_cases hdir : deployDir.isEmpty
  · simp [hdir, firstUnder, iconsUnder, appInfo]
  · have hfiles : hicolorFiles host deployDir appId =
        (iconsUnder host deployDir appId filesRoot ++
          iconsUnder host deployDir appId exportRoot).map Searched.path := by
      rw [iconsUnder, iconsUnder, if_neg hdir, if_neg hdir]
      rfl
    rw [if_neg hdir, appInfo, if_neg hdir, List.find?_append, hfiles, List.find?_map,
      List.find?_append]
    rfl

/-! ### The paths -/

/-- **The same icon is looked for under every root.** -/
theorem iconsUnder_path {root : DartString} {c : Searched}
    (hc : c ∈ iconsUnder host deployDir appId root) :
    deployDir ≠ [] ∧ ∃ folder ext : DartString, Plain folder ∧ Plain ext ∧
      c.path = host.join [deployDir, root, folder, .lit "apps", appId ++ ext] ∧
      ∀ root', ∃ c' ∈ iconsUnder host deployDir appId root', c'.rank = c.rank ∧
        c'.path = host.join [deployDir, root', folder, .lit "apps", appId ++ ext] := by
  rw [iconsUnder] at hc
  split at hc
  case isTrue => cases hc
  case isFalse hdir =>
    refine ⟨fun h => hdir (List.isEmpty_iff.mpr h), ?_⟩
    rcases List.mem_cons.mp hc with rfl | hc
    · refine ⟨.lit "scalable", .lit ".svg", by decide, by decide, rfl, fun root' => ?_⟩
      refine ⟨⟨svgFile host deployDir appId root', ⊤⟩, ?_, rfl, rfl⟩
      rw [iconsUnder, if_neg hdir]
      exact List.mem_cons_self
    · obtain ⟨folder, hfolder, rfl⟩ := List.mem_map.mp hc
      have hplain : ∀ folder ∈ folders, Plain folder.1 := by decide
      refine ⟨folder.1, .lit ".png", hplain folder hfolder, by decide, rfl, fun root' => ?_⟩
      refine ⟨⟨pngFile host deployDir appId root' folder.1, .some folder.2⟩, ?_, rfl, rfl⟩
      rw [iconsUnder, if_neg hdir]
      exact List.mem_cons_of_mem _ (List.mem_map_of_mem hfolder)

/-- The path of an icon begins with the directory and the root, if the app id is no
absolute path. -/
theorem join_relative (hjoin : PathJoin host.join) {root folder ext : DartString}
    (hdir : deployDir ≠ []) (hroot : Plain root) (hfolder : Plain folder) (hext : Plain ext)
    (happ : appId.head? ≠ some 0x2F) :
    ∃ rest, host.join [deployDir, root, folder, .lit "apps", appId ++ ext] =
      deployDir ++ (if deployDir.getLast? = some 0x2F then [] else [0x2F]) ++ (root ++ rest) := by
  have hfile : Plain (appId ++ ext) := by
    refine ⟨by simp [hext.1], ?_, ?_⟩
    · cases appId with
      | nil => exact hext.2.1
      | cons a rest => exact happ
    · rw [List.getLast?_append_of_ne_nil _ hext.1]
      exact hext.2.2
  refine ⟨0x2F :: List.intercalate [0x2F] [folder, DartString.lit "apps", appId ++ ext], ?_⟩
  rw [hjoin.relative deployDir [root, folder, .lit "apps", appId ++ ext] hdir (by simp)
    (by simpa using ⟨hroot, hfolder, (by decide : Plain (DartString.lit "apps")), hfile⟩)]
  simp [List.intercalate]

/-- **Icons of the two roots** have one path only where the root does not matter. -/
theorem same_path (hjoin : PathJoin host.join) {c d : Searched}
    (hc : c ∈ iconsUnder host deployDir appId exportRoot)
    (hd : d ∈ iconsUnder host deployDir appId filesRoot) (hsame : c.path = d.path) :
    ∃ c' ∈ iconsUnder host deployDir appId filesRoot, c'.path = c.path ∧ c'.rank = c.rank := by
  obtain ⟨hdir, folder, ext, hfolder, hext, hpath, hroots⟩ := iconsUnder_path hc
  by_cases happ : appId.head? = some 0x2F
  · -- an app id that is an absolute path is the whole of the path
    obtain ⟨c', hc', hrank, hpath'⟩ := hroots filesRoot
    refine ⟨c', hc', ?_, hrank⟩
    have hfile : (appId ++ ext).head? = some 0x2F := by
      rw [List.head?_append, happ, Option.some_or]
    rw [hpath', hpath]
    exact (hjoin.absolute [deployDir, filesRoot, folder, .lit "apps"] _ hfile).trans
      (hjoin.absolute [deployDir, exportRoot, folder, .lit "apps"] _ hfile).symm
  · -- else the roots begin with different letters
    exfalso
    obtain ⟨-, folder', ext', hfolder', hext', hpath', -⟩ := iconsUnder_path hd
    obtain ⟨rest, hrest⟩ :=
      join_relative hjoin hdir (by decide : Plain exportRoot) hfolder hext happ
    obtain ⟨rest', hrest'⟩ :=
      join_relative hjoin hdir (by decide : Plain filesRoot) hfolder' hext' happ
    rw [hpath, hrest, hpath', hrest'] at hsame
    have hhead := congrArg List.head? (List.append_cancel_left hsame)
    have hexport : exportRoot.head? = some 0x65 := by decide
    have hfiles : filesRoot.head? = some 0x66 := by decide
    rw [List.head?_append, List.head?_append, hexport, hfiles, Option.some_or,
      Option.some_or] at hhead
    exact absurd hhead (by decide)

/-! ### The best icon -/

theorem found_of_path {c d : Searched} (hsame : c.path = d.path) (hc : c.Found host) :
    d.Found host := by
  rw [Searched.Found, ← hsame]
  exact hc

/-- Where the result comes from. -/
theorem resolve_eq_some {icon : DartString}
    (h : resolveInstalledIconPath host deployDir appId = some icon) :
    (∃ c, firstUnder host deployDir appId filesRoot = some c ∧ c.path = icon) ∨
    (firstUnder host deployDir appId filesRoot = none ∧
      ∃ c, firstUnder host deployDir appId exportRoot = some c ∧ c.path = icon) ∨
    (firstUnder host deployDir appId filesRoot = none ∧
      firstUnder host deployDir appId exportRoot = none ∧
      (appInfo host deployDir appId).find? host.existsSync = some icon) := by
  rw [resolve_eq] at h
  cases hfiles : firstUnder host deployDir appId filesRoot with
  | some c => exact .inl ⟨c, rfl, by simpa [hfiles] using h⟩
  | none =>
    cases hexport : firstUnder host deployDir appId exportRoot with
    | some c => exact .inr (.inl ⟨rfl, c, rfl, by simpa [hfiles, hexport] using h⟩)
    | none => exact .inr (.inr ⟨rfl, rfl, by simpa [hfiles, hexport] using h⟩)

theorem resolve_eq_none_iff : resolveInstalledIconPath host deployDir appId = none ↔
    (∀ c ∈ hicolor host deployDir appId, ¬ c.Found host) ∧
      ∀ file ∈ appInfo host deployDir appId, host.existsSync file = false := by
  rw [resolve_eq, Option.or_eq_none_iff, Option.map_eq_none_iff, firstUnder, firstUnder,
    ← List.find?_append, List.find?_eq_none, List.find?_eq_none]
  simp [hicolor, Searched.Found]

/-- The icon that is returned is there. -/
theorem resolve_exists {icon : DartString}
    (h : resolveInstalledIconPath host deployDir appId = some icon) :
    host.existsSync icon = true := by
  rcases resolve_eq_some h with ⟨c, hc, rfl⟩ | ⟨-, c, hc, rfl⟩ | ⟨-, -, hinfo⟩
  · exact (firstUnder_found hc).2
  · exact (firstUnder_found hc).2
  · exact List.find?_some hinfo

/-- The best icon, under the condition. -/
theorem best_of_leads (hlead : FirstRootLeads host deployDir appId) {icon : DartString}
    (h : resolveInstalledIconPath host deployDir appId = some icon) :
    (∃ c ∈ hicolor host deployDir appId, c.path = icon ∧
      ∀ d ∈ hicolor host deployDir appId, d.Found host → d.rank ≤ c.rank) ∨
    (icon ∈ appInfo host deployDir appId ∧
      ∀ d ∈ hicolor host deployDir appId, ¬ d.Found host) := by
  rcases resolve_eq_some h with ⟨c, hc, rfl⟩ | ⟨hnone, c, hc, rfl⟩ | ⟨hnone, hnone', hinfo⟩
  · obtain ⟨hmem, hfound⟩ := firstUnder_found hc
    refine .inl ⟨c, List.mem_append_left _ hmem, rfl, fun d hd hthere => ?_⟩
    rcases List.mem_append.mp hd with hd | hd
    · exact firstUnder_best hc d hd hthere
    · obtain ⟨c', hc', hfound', hle⟩ := hlead ⟨c, hmem, hfound⟩ d hd hthere
      exact hle.trans (firstUnder_best hc c' hc' hfound')
  · refine .inl ⟨c, List.mem_append_right _ (firstUnder_found hc).1, rfl, fun d hd hthere => ?_⟩
    rcases List.mem_append.mp hd with hd | hd
    · exact absurd hthere (firstUnder_none hnone d hd)
    · exact firstUnder_best hc d hd hthere
  · refine .inr ⟨List.mem_of_find?_eq_some hinfo, fun d hd => ?_⟩
    rcases List.mem_append.mp hd with hd | hd
    · exact firstUnder_none hnone d hd
    · exact firstUnder_none hnone' d hd

/-- **When the best icon is returned**: if the first root has none, or one as good as any
of the second root. -/
theorem bestIcon_iff (host : Host) (hjoin : PathJoin host.join) (deployDir appId : DartString) :
    BestIcon host deployDir appId ↔ FirstRootLeads host deployDir appId := by
  constructor
  · rintro hbest ⟨c₀, hc₀, hfound₀⟩ d hd hthere
    cases hfirst : firstUnder host deployDir appId filesRoot with
    | none => exact absurd hfound₀ (firstUnder_none hfirst c₀ hc₀)
    | some first =>
      obtain ⟨hmem, hfound⟩ := firstUnder_found hfirst
      have hresult : resolveInstalledIconPath host deployDir appId = some first.path := by
        rw [resolve_eq, hfirst]
        rfl
      rcases hbest.best _ hresult with ⟨c, hc, hpath, hmax⟩ | ⟨-, hnone⟩
      · have hle := hmax d (List.mem_append_right _ hd) hthere
        rcases List.mem_append.mp hc with hc | hc
        · exact ⟨c, hc, found_of_path hpath.symm hfound, hle⟩
        · obtain ⟨c', hc', hpath', hrank⟩ := same_path hjoin hc hmem hpath
          exact ⟨c', hc', found_of_path (hpath'.trans hpath).symm hfound, hle.trans hrank.ge⟩
      · exact absurd hfound (hnone first (List.mem_append_left _ hmem))
  · exact fun hlead =>
      ⟨resolve_eq_none_iff, fun _ => resolve_exists, fun _ => best_of_leads hlead⟩

/-! ### A better icon under the second root -/

def joinPart (path part : DartString) : DartString :=
  if part.head? = some 0x2F then part
  else if path = [] ∨ path.getLast? = some 0x2F then path ++ part
  else path ++ 0x2F :: part

/-- `p.join` of a POSIX host. -/
def posixJoin (parts : List DartString) : DartString := parts.foldl joinPart []

theorem joinPart_of_plain {path part : DartString} (hpath : path ≠ []) (hpart : Plain part) :
    joinPart path part =
      path ++ (if path.getLast? = some 0x2F then [] else [0x2F]) ++ part := by
  rw [joinPart, if_neg hpart.2.1]
  simp only [hpath, false_or]
  split_ifs <;> simp

theorem foldl_joinPart {parts : List DartString} (hparts : parts ≠ [])
    (hplain : ∀ p ∈ parts, Plain p) {path : DartString} (hpath : path ≠ []) :
    parts.foldl joinPart path =
      path ++ (if path.getLast? = some 0x2F then [] else [0x2F]) ++
        List.intercalate [0x2F] parts := by
  induction parts generalizing path with
  | nil => exact absurd rfl hparts
  | cons part rest ih =>
    have hpart := hplain part List.mem_cons_self
    rw [List.foldl_cons, joinPart_of_plain hpath hpart]
    by_cases hrest : rest = []
    · simp [hrest, List.intercalate]
    · have hlast : (path ++ (if path.getLast? = some 0x2F then [] else [0x2F]) ++ part).getLast? ≠
          some 0x2F := by
        rw [List.getLast?_append_of_ne_nil _ hpart.1]
        exact hpart.2.2
      rw [ih hrest (fun p hp => hplain p (List.mem_cons_of_mem _ hp)) (by simp [hpart.1]),
        if_neg hlast]
      obtain ⟨next, more, rfl⟩ := List.exists_cons_of_ne_nil hrest
      simp [List.intercalate]

theorem posixJoin_pathJoin : PathJoin posixJoin where
  absolute parts file hfile := by
    rw [posixJoin, List.foldl_append, List.foldl_cons, List.foldl_nil, joinPart, if_pos hfile]
  relative dir parts hdir hparts hplain := by
    have hfirst : joinPart [] dir = dir := by simp [joinPart]
    rw [posixJoin, List.foldl_cons, hfirst, foldl_joinPart hparts hplain hdir]

/-- An app with a small icon under the first root and a scalable one under the second. -/
def twoRoots : Host where
  text s := s.bytes.map (·.toUInt16)
  join := posixJoin
  existsSync path :=
    path = DartString.lit "/app/files/share/icons/hicolor/16x16/apps/org.App.png" ∨
      path = DartString.lit "/app/export/share/icons/hicolor/scalable/apps/org.App.svg"

/-- **The small icon is returned.** -/
theorem resolve_small :
    resolveInstalledIconPath twoRoots (.lit "/app") (.lit "org.App") =
        some (.lit "/app/files/share/icons/hicolor/16x16/apps/org.App.png") ∧
      ¬ BestIcon twoRoots (.lit "/app") (.lit "org.App") := by
  have hresult : resolveInstalledIconPath twoRoots (.lit "/app") (.lit "org.App") =
      some (.lit "/app/files/share/icons/hicolor/16x16/apps/org.App.png") := by
    decide +kernel
  have hscalable : ∃ d ∈ hicolor twoRoots (.lit "/app") (.lit "org.App"),
      d.rank = ⊤ ∧ twoRoots.existsSync d.path = true := by
    decide +kernel
  have hsmall : ∀ c ∈ hicolor twoRoots (.lit "/app") (.lit "org.App"), c.rank = ⊤ →
      c.path ≠ .lit "/app/files/share/icons/hicolor/16x16/apps/org.App.png" := by
    decide +kernel
  refine ⟨hresult, fun hbest => ?_⟩
  obtain ⟨d, hd, htop, hthere⟩ := hscalable
  rcases hbest.best _ hresult with ⟨c, hc, hpath, hmax⟩ | ⟨-, hnone⟩
  · have hle := hmax d hd hthere
    rw [htop] at hle
    exact hsmall c hc (top_le_iff.mp hle) hpath
  · exact hnone d hd hthere

/-- An app with its icons the other way round. -/
def scalableFirst : Host where
  text := twoRoots.text
  join := posixJoin
  existsSync path :=
    path = DartString.lit "/app/files/share/icons/hicolor/scalable/apps/org.App.svg" ∨
      path = DartString.lit "/app/export/share/icons/hicolor/16x16/apps/org.App.png"

theorem bestIcon_iff_twoRoots :
    ¬ BestIcon twoRoots (.lit "/app") (.lit "org.App") ∧
      BestIcon scalableFirst (.lit "/app") (.lit "org.App") := by
  have hbehind : ¬ FirstRootLeads twoRoots (.lit "/app") (.lit "org.App") := by
    decide +kernel
  have hleads : FirstRootLeads scalableFirst (.lit "/app") (.lit "org.App") := by
    decide +kernel
  exact ⟨mt (bestIcon_iff twoRoots posixJoin_pathJoin _ _).mp hbehind,
    (bestIcon_iff scalableFirst posixJoin_pathJoin _ _).mpr hleads⟩

end InstalledIcons
