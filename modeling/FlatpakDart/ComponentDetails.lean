/-
Metadata of apps out of the catalogs (`lib/src/appstream/catalog.dart`):
`componentDetail` for one app, `componentDetails` for several in one pass.

* `search_eq` — the first remote whose catalog lists the app decides;
* `searchAll_get` — the pass over the remotes, with what is still pending and what
  was found: the loop invariant;
* `componentDetails_single` — the batch is the single lookup of each of its apps.
-/
import FlatpakDart.DartTypes
import FlatpakDart.InsertionOrder

open InsertionOrder Dart

namespace ComponentDetails

variable {ComponentDetail : Type*}

/-- A catalog that is open. -/
structure CatalogDatabase (ComponentDetail : Type*) where
  getComponentDetail : String → Option ComponentDetail

/-- What the two lookups ask for. -/
structure FlatpakAppStream (ComponentDetail : Type*) where
  /-- `_installation.listRemotes` -/
  listRemotes : List FlatpakRemote
  /-- `_openCatalog`, of a remote, an arch and a language -/
  openCatalog : String → String → String → Option (CatalogDatabase ComponentDetail)

/-- `_remoteNames`. -/
def FlatpakAppStream.remoteNames (s : FlatpakAppStream ComponentDetail) (remote : String) :
    List String :=
  if remote ≠ "" then [remote] else s.listRemotes.map (·.name)

section Loops

variable (openCatalog : String → Option (CatalogDatabase ComponentDetail))

/-- The loop of `componentDetail`. -/
def search (appId : String) : List String → Option ComponentDetail
  | [] => none
  | r :: rest =>
    match openCatalog r with
    | none => search appId rest
    | some db =>
      match db.getComponentDetail appId with
      | some detail => some detail
      | none => search appId rest

/-- The inner loop of `componentDetails`, over a copy of `pending`. -/
def collect (db : CatalogDatabase ComponentDetail) :
    List String → LinkedSet String → LinkedMap String ComponentDetail →
      LinkedSet String × LinkedMap String ComponentDetail
  | [], pending, out => (pending, out)
  | appId :: rest, pending, out =>
    match db.getComponentDetail appId with
    | some detail => collect db rest (pending.remove appId) (out.put appId detail)
    | none => collect db rest pending out

/-- The outer loop of `componentDetails`. -/
def searchAll : List String → LinkedSet String → LinkedMap String ComponentDetail →
    LinkedMap String ComponentDetail
  | [], _, out => out
  | r :: rest, pending, out =>
    if pending.toList.isEmpty then out
    else
      match openCatalog r with
      | none => searchAll rest pending out
      | some db =>
        let found := collect db pending.toList pending out
        searchAll rest found.1 found.2

end Loops

/-- `componentDetail`. -/
def FlatpakAppStream.componentDetail (s : FlatpakAppStream ComponentDetail) (appId : String)
    (remote arch language : String) : Option ComponentDetail :=
  search (s.openCatalog · arch language) appId (s.remoteNames remote)

/-- `componentDetails`. -/
def FlatpakAppStream.componentDetails (s : FlatpakAppStream ComponentDetail)
    (appIds : List String) (remote arch language : String) : LinkedMap String ComponentDetail :=
  searchAll (s.openCatalog · arch language) (s.remoteNames remote) (.ofList appIds) .empty

/-! ### One app -/

/-- **The first remote that has it.** -/
theorem search_eq (openCatalog : String → Option (CatalogDatabase ComponentDetail))
    (appId : String) (remotes : List String) :
    search openCatalog appId remotes =
      remotes.findSome? fun r => (openCatalog r).bind (·.getComponentDetail appId) := by
  induction remotes with
  | nil => rfl
  | cons r rest ih =>
    rw [search, List.findSome?_cons]
    cases openCatalog r with
    | none => exact ih
    | some db =>
      show (match db.getComponentDetail appId with | some detail => some detail | none => _) = _
      rw [Option.bind_some]
      cases db.getComponentDetail appId with
      | none => exact ih
      | some detail => rfl

/-! ### Several apps -/

/-- What a catalog has of the apps it is asked for is found, and nothing else changes. -/
theorem collect_spec (db : CatalogDatabase ComponentDetail) (appIds : List String)
    (pending : LinkedSet String) (out : LinkedMap String ComponentDetail) (id : String) :
    (id ∈ (collect db appIds pending out).1 ↔
        id ∈ pending ∧ (id ∈ appIds → db.getComponentDetail id = none)) ∧
      (collect db appIds pending out).2.get id =
        if id ∈ appIds then (db.getComponentDetail id).or (out.get id) else out.get id := by
  induction appIds generalizing pending out with
  | nil => simp [collect]
  | cons appId rest ih =>
    rw [collect]
    cases hdetail : db.getComponentDetail appId with
    | none =>
      obtain ⟨hpending, hout⟩ := ih pending out
      by_cases hid : id = appId
      · subst hid
        simp [hpending, hout, hdetail]
      · simp [hpending, hout, hid]
    | some detail =>
      obtain ⟨hpending, hout⟩ := ih (pending.remove appId) (out.put appId detail)
      by_cases hid : id = appId
      · subst hid
        simp [hpending, hout, hdetail, LinkedMap.get_put]
      · simp [hpending, hout, hid, LinkedMap.get_put]

/-- **The loop invariant**: an app that is pending will be found by the remotes that are
left, and nothing was found for it yet; of any other the result stands. -/
theorem searchAll_get (openCatalog : String → Option (CatalogDatabase ComponentDetail))
    (remotes : List String) (pending : LinkedSet String)
    (out : LinkedMap String ComponentDetail) (hnew : ∀ id ∈ pending, out.get id = none)
    (id : String) :
    (searchAll openCatalog remotes pending out).get id =
      if id ∈ pending then search openCatalog id remotes else out.get id := by
  induction remotes generalizing pending out with
  | nil =>
    rw [searchAll, search]
    split
    · next hid => exact hnew id hid
    · rfl
  | cons r rest ih =>
    rw [searchAll]
    split
    · next hempty =>
      -- nothing is pending
      have hnone : id ∉ pending := by
        rw [← LinkedSet.mem_toList, List.isEmpty_iff.mp hempty]
        exact List.not_mem_nil
      rw [if_neg hnone]
    · rw [search]
      cases openCatalog r with
      | none => exact ih pending out hnew
      | some db =>
        have hfound := collect_spec db pending.toList pending out
        have hnew' : ∀ i ∈ (collect db pending.toList pending out).1,
            (collect db pending.toList pending out).2.get i = none := by
          intro i hi
          obtain ⟨hpending, hmissing⟩ := (hfound i).1.mp hi
          have hout := (hfound i).2
          rw [if_pos (LinkedSet.mem_toList.mpr hpending),
            hmissing (LinkedSet.mem_toList.mpr hpending), hnew i hpending] at hout
          exact hout
        obtain ⟨hpending, hout⟩ := hfound id
        show (searchAll openCatalog rest (collect db pending.toList pending out).1
          (collect db pending.toList pending out).2).get id = _
        rw [ih _ _ hnew', hout]
        simp only [LinkedSet.mem_toList] at hpending ⊢
        by_cases hid : id ∈ pending
        · cases hdetail : db.getComponentDetail id with
          | none =>
            have hstill := hpending.mpr ⟨hid, fun _ => hdetail⟩
            rw [if_pos hstill, if_pos hid]
          | some detail =>
            -- found in this catalog, so no later remote is asked
            have hgone : id ∉ (collect db pending.toList pending out).1 := by
              intro h
              exact absurd ((hpending.mp h).2 hid) (by simp [hdetail])
            rw [if_neg hgone, if_pos hid, if_pos hid]
            rfl
        · have hgone : id ∉ (collect db pending.toList pending out).1 :=
            fun h => hid (hpending.mp h).1
          rw [if_neg hgone, if_neg hid, if_neg hid]

theorem componentDetails_get (s : FlatpakAppStream ComponentDetail) (appIds : List String)
    (remote arch language id : String) :
    (s.componentDetails appIds remote arch language).get id =
      if id ∈ appIds then s.componentDetail id remote arch language else none := by
  rw [FlatpakAppStream.componentDetails, searchAll_get]
  · simp [FlatpakAppStream.componentDetail]
  · intro i hi
    rfl

/-- **The batch is the single lookup of each of its apps**, without those it does not
find. -/
theorem componentDetails_single (s : FlatpakAppStream ComponentDetail) (appIds : List String)
    (remote arch language : String) :
    (∀ id ∈ appIds, (s.componentDetails appIds remote arch language).get id =
        s.componentDetail id remote arch language) ∧
      ∀ id, id ∈ (s.componentDetails appIds remote arch language).keys ↔
        id ∈ appIds ∧ s.componentDetail id remote arch language ≠ none := by
  constructor
  case left =>
    intro id hid
    rw [componentDetails_get, if_pos hid]
  case right =>
    intro id
    rw [LinkedMap.mem_keys, componentDetails_get]
    by_cases hid : id ∈ appIds
    · simp [hid]
    · simp [hid]

end ComponentDetails
