/-
Sets and maps that are gone through in the order in which things were put in.

* `mem_addAll`, `nodup_addAll`, `prefix_addAll` — putting in what is not there yet
  keeps what is there in front, once each;
* `LinkedSet.mem_ofList`, `LinkedSet.mem_remove` — the set, through its members;
* `LinkedMap.get_put`, `LinkedMap.mem_keys` — the map, through its values;
* `LinkedMap.get_ofEntries`, `LinkedMap.mem_entries` — a map that is put in entry by
  entry, and gone through again;
* `LinkedMap.ofEntries_entries` — it is then the same map.
-/
import Mathlib.Data.List.Induction
import Mathlib.Data.List.Nodup

namespace InsertionOrder

variable {α β : Type*} [DecidableEq α]

/-! ### Lists without repetition -/

/-- Put at the end what is not there yet. -/
def add (l : List α) (a : α) : List α := if a ∈ l then l else l ++ [a]

def addAll (l as : List α) : List α := as.foldl add l

@[simp] theorem mem_add {l : List α} {a b : α} : b ∈ add l a ↔ b ∈ l ∨ b = a := by
  rw [add]
  split
  · next ha =>
    constructor
    · exact Or.inl
    · rintro (hb | rfl)
      · exact hb
      · exact ha
  · simp

theorem nodup_add {l : List α} (h : l.Nodup) (a : α) : (add l a).Nodup := by
  rw [add]
  split
  · exact h
  · next ha => exact h.append (List.nodup_singleton a) (List.disjoint_singleton.mpr ha)

theorem prefix_add (l : List α) (a : α) : l <+: add l a := by
  rw [add]
  split
  · exact List.prefix_refl l
  · exact List.prefix_append l [a]

@[simp] theorem mem_addAll {l as : List α} {b : α} : b ∈ addAll l as ↔ b ∈ l ∨ b ∈ as := by
  rw [addAll]
  induction as generalizing l with
  | nil => simp
  | cons a as ih => rw [List.foldl_cons, ih, mem_add, List.mem_cons, or_assoc]

theorem nodup_addAll {l : List α} (h : l.Nodup) (as : List α) : (addAll l as).Nodup :=
  List.foldlRecOn as add h fun _ hl a _ => nodup_add hl a

theorem prefix_addAll (l as : List α) : l <+: addAll l as :=
  List.foldlRecOn as add (List.prefix_refl l) fun l' hl' a _ => hl'.trans (prefix_add l' a)

/-! ### Sets -/

structure LinkedSet (α : Type*) where
  toList : List α
  nodup : toList.Nodup

namespace LinkedSet

instance : Membership α (LinkedSet α) := ⟨fun s a => a ∈ s.toList⟩

instance (a : α) (s : LinkedSet α) : Decidable (a ∈ s) := inferInstanceAs (Decidable (a ∈ s.toList))

omit [DecidableEq α] in
theorem mem_toList {s : LinkedSet α} {a : α} : a ∈ s.toList ↔ a ∈ s := Iff.rfl

def ofList (as : List α) : LinkedSet α := ⟨addAll [] as, nodup_addAll List.nodup_nil as⟩

def remove (s : LinkedSet α) (a : α) : LinkedSet α := ⟨s.toList.erase a, s.nodup.erase a⟩

@[simp] theorem mem_ofList {as : List α} {a : α} : a ∈ ofList as ↔ a ∈ as := by
  rw [← mem_toList, ofList, mem_addAll]
  simp

@[simp] theorem mem_remove {s : LinkedSet α} {a b : α} : b ∈ s.remove a ↔ b ∈ s ∧ b ≠ a := by
  rw [← mem_toList, remove, s.nodup.mem_erase_iff, mem_toList, and_comm]

end LinkedSet

/-! ### Maps -/

structure LinkedMap (α β : Type*) where
  entries : List (α × β)
  nodup : (entries.map Prod.fst).Nodup

namespace LinkedMap

def empty : LinkedMap α β := ⟨[], List.nodup_nil⟩

def keys (m : LinkedMap α β) : List α := m.entries.map Prod.fst

def get (m : LinkedMap α β) (a : α) : Option β := (m.entries.find? (·.1 = a)).map (·.2)

/-- A key that is there keeps its place. -/
def put (m : LinkedMap α β) (a : α) (b : β) : LinkedMap α β :=
  if h : a ∈ m.keys then
    { entries := m.entries.map fun e => if e.1 = a then (a, b) else e
      nodup := by
        have hkeys : (m.entries.map fun e => if e.1 = a then (a, b) else e).map Prod.fst =
            m.entries.map Prod.fst := by
          rw [List.map_map]
          refine List.map_congr_left fun e _ => ?_
          by_cases he : e.1 = a
          · simp [he]
          · simp [he]
        exact hkeys ▸ m.nodup }
  else
    { entries := m.entries ++ [(a, b)]
      nodup := by
        rw [List.map_append]
        exact m.nodup.append (List.nodup_singleton a) (List.disjoint_singleton.mpr h) }

@[simp] theorem get_empty (a : α) : (empty : LinkedMap α β).get a = none := rfl

theorem find?_eq_none_iff {m : LinkedMap α β} {a : α} :
    m.entries.find? (·.1 = a) = none ↔ a ∉ m.keys := by
  rw [List.find?_eq_none]
  constructor
  · intro h ha
    obtain ⟨e, he, rfl⟩ := List.mem_map.mp ha
    exact h e he (by simp)
  · intro h e he hea
    exact h (List.mem_map.mpr ⟨e, he, by simpa using hea⟩)

/-- The keys are what has a value. -/
theorem mem_keys {m : LinkedMap α β} {a : α} : a ∈ m.keys ↔ m.get a ≠ none := by
  rw [get, Ne, Option.map_eq_none_iff, find?_eq_none_iff, not_not]

theorem find?_put {entries : List (α × β)} {a c : α} (b : β) (ha : a ∈ entries.map Prod.fst) :
    ((entries.map fun e => if e.1 = a then (a, b) else e).find? (·.1 = c)).map (·.2) =
      if c = a then some b else (entries.find? (·.1 = c)).map (·.2) := by
  by_cases hc : c = a
  · subst hc
    rw [if_pos rfl]
    -- the first entry under the key is the one that is replaced
    induction entries with
    | nil => exact absurd ha (by simp)
    | cons e entries ih =>
      by_cases he : e.1 = c
      · simp [he]
      · have hrest : c ∈ entries.map Prod.fst := by
          simpa [Ne.symm he] using ha
        simpa [he] using ih hrest
  · rw [if_neg hc]
    clear ha
    induction entries with
    | nil => rfl
    | cons e entries ih =>
      by_cases he : e.1 = a
      · have hne : ¬ a = c := fun h => hc h.symm
        simpa [he, hne] using ih
      · by_cases hec : e.1 = c
        · subst hec
          simp [he]
        · simpa [he, hec] using ih

theorem get_put (m : LinkedMap α β) (a : α) (b : β) (c : α) :
    (m.put a b).get c = if c = a then some b else m.get c := by
  rw [put]
  split
  · next ha =>
    exact find?_put b ha
  · next ha =>
    rw [get, List.find?_append]
    by_cases hc : c = a
    · subst hc
      simp [find?_eq_none_iff.mpr ha]
    · have hne : a ≠ c := fun h => hc h.symm
      simp [hc, hne, get]

/-- The entries are the keys with their values. -/
theorem mem_entries {m : LinkedMap α β} {a : α} {b : β} :
    (a, b) ∈ m.entries ↔ m.get a = some b := by
  rw [get]
  constructor
  · intro h
    cases hfind : m.entries.find? (·.1 = a) with
    | none => exact absurd (List.mem_map.mpr ⟨(a, b), h, rfl⟩) (find?_eq_none_iff.mp hfind)
    | some e =>
      have hkey : e.1 = a := by simpa using List.find?_some hfind
      obtain rfl : e = (a, b) :=
        List.inj_on_of_nodup_map m.nodup (List.mem_of_find?_eq_some hfind) h hkey
      rfl
  · intro h
    obtain ⟨⟨a', b'⟩, hfind, rfl⟩ := Option.map_eq_some_iff.mp h
    obtain rfl : a' = a := by simpa using List.find?_some hfind
    exact List.mem_of_find?_eq_some hfind

/-- The entries of a list, put in one after the other. -/
def ofEntries (es : List (α × β)) : LinkedMap α β := es.foldl (fun m e => m.put e.1 e.2) empty

/-- An entry comes from the list, and every key of the list has one. -/
theorem get_ofEntries (es : List (α × β)) (a : α) :
    (∀ b, (ofEntries es).get a = some b → (a, b) ∈ es) ∧
      (a ∈ es.map Prod.fst → (ofEntries es).get a ≠ none) := by
  rw [ofEntries]
  -- from the end, as the last entry under a key stays
  induction es using List.reverseRecOn with
  | nil => simp
  | append_singleton es e ih =>
    rw [List.foldl_append, List.foldl_cons, List.foldl_nil]
    simp only [get_put, List.mem_append, List.map_append, List.map_cons, List.map_nil,
      List.mem_singleton]
    by_cases ha : a = e.1
    · subst ha
      simp
    · rw [if_neg ha]
      refine ⟨fun b hb => .inl (ih.1 b hb), fun h => ?_⟩
      exact ih.2 (h.resolve_right ha)

/-- Where the list has one value for a key, that is what the key has. -/
theorem get_ofEntries_of_unique {es : List (α × β)} {a : α} {b : β} (h : (a, b) ∈ es)
    (hunique : ∀ c, (a, c) ∈ es → c = b) : (ofEntries es).get a = some b := by
  obtain ⟨hmem, hkey⟩ := get_ofEntries es a
  cases hget : (ofEntries es).get a with
  | none => exact absurd hget (hkey (List.mem_map.mpr ⟨(a, b), h, rfl⟩))
  | some c => rw [hunique c (hmem c hget)]

/-- What is put in once each is there in order. -/
theorem entries_ofEntries {es : List (α × β)} (h : (es.map Prod.fst).Nodup) :
    (ofEntries es).entries = es := by
  induction es using List.reverseRecOn with
  | nil => rfl
  | append_singleton es e ih =>
    rw [List.map_append, List.map_singleton] at h
    obtain ⟨hes, -, hdisjoint⟩ := List.nodup_append.mp h
    have hnew : e.1 ∉ (ofEntries es).keys := by
      rw [keys, ih hes]
      exact fun hmem => hdisjoint _ hmem _ (List.mem_singleton_self _) rfl
    rw [ofEntries, List.foldl_append]
    show ((ofEntries es).put e.1 e.2).entries = _
    rw [put, dif_neg hnew]
    exact congrArg (· ++ [e]) (ih hes)

theorem ofEntries_entries (m : LinkedMap α β) : ofEntries m.entries = m :=
  (mk.injEq _ _ _ _).mpr (entries_ofEntries m.nodup)

def values (m : LinkedMap α β) : List β := m.entries.map Prod.snd

def remove (m : LinkedMap α β) (a : α) : LinkedMap α β where
  entries := m.entries.filter (·.1 ≠ a)
  nodup := m.nodup.sublist (List.filter_sublist.map Prod.fst)

omit [DecidableEq α] in
theorem values_ofMem {m : LinkedMap α β} {b : β} (hb : b ∈ m.values) :
    ∃ a, (a, b) ∈ m.entries := by
  obtain ⟨⟨a, b'⟩, he, rfl⟩ := List.mem_map.mp hb
  exact ⟨a, he⟩

/-- The values are what is under the keys. -/
theorem mem_values {m : LinkedMap α β} {b : β} : b ∈ m.values ↔ ∃ a, m.get a = some b := by
  constructor
  · intro hb
    obtain ⟨a, ha⟩ := values_ofMem hb
    exact ⟨a, mem_entries.mp ha⟩
  · rintro ⟨a, ha⟩
    exact List.mem_map.mpr ⟨(a, b), mem_entries.mpr ha, rfl⟩

/-- A key has one place. -/
theorem entries_eq_append {m : LinkedMap α β} {a : α} {b : β} (h : m.get a = some b) :
    ∃ l r, m.entries = l ++ (a, b) :: r ∧ (∀ e ∈ l, e.1 ≠ a) ∧ ∀ e ∈ r, e.1 ≠ a := by
  obtain ⟨l, r, heq⟩ := List.append_of_mem (mem_entries.mpr h)
  have hnodup := m.nodup
  rw [heq, List.map_append, List.map_cons, List.nodup_append] at hnodup
  obtain ⟨-, hr, hl⟩ := hnodup
  refine ⟨l, r, heq, fun e he => ?_, fun e he hea => ?_⟩
  · exact hl _ (List.mem_map_of_mem he) a List.mem_cons_self
  · exact (List.nodup_cons.mp hr).1 (List.mem_map.mpr ⟨e, he, hea⟩)

/-- A value that is put in takes the place of the one that was there. -/
theorem perm_values_put {m : LinkedMap α β} {a : α} {b : β} (h : m.get a = some b) (c : β) :
    ((m.put a c).values ++ [b]).Perm (c :: m.values) := by
  obtain ⟨l, r, heq, hl, hr⟩ := entries_eq_append h
  have hkey : a ∈ m.keys := mem_keys.mpr (by simp [h])
  have hkeep (es : List (α × β)) (hes : ∀ e ∈ es, e.1 ≠ a) :
      (es.map fun e => if e.1 = a then (a, c) else e) = es :=
    List.map_congr_left (fun e he => if_neg (hes e he)) |>.trans (List.map_id es)
  rw [values, put, dif_pos hkey]
  show (((m.entries.map fun e => if e.1 = a then (a, c) else e).map Prod.snd) ++ [b]).Perm _
  rw [values, heq, List.map_append, List.map_cons, hkeep l hl, hkeep r hr, if_pos rfl]
  simp only [List.map_append, List.map_cons]
  refine (List.perm_append_singleton b _).trans ?_
  refine (List.Perm.cons b List.perm_middle).trans ?_
  refine (List.Perm.swap c b _).trans (List.Perm.cons c ?_)
  exact List.perm_middle.symm

theorem values_put_of_not_mem {m : LinkedMap α β} {a : α} (h : m.get a = none) (c : β) :
    (m.put a c).values = m.values ++ [c] := by
  have hkey : a ∉ m.keys := fun ha => mem_keys.mp ha h
  rw [values, put, dif_neg hkey]
  exact List.map_append

theorem perm_values_remove {m : LinkedMap α β} {a : α} {b : β} (h : m.get a = some b) :
    m.values.Perm (b :: (m.remove a).values) := by
  obtain ⟨l, r, heq, hl, hr⟩ := entries_eq_append h
  have hkeep (es : List (α × β)) (hes : ∀ e ∈ es, e.1 ≠ a) : es.filter (·.1 ≠ a) = es :=
    List.filter_eq_self.mpr fun e he => by simpa using hes e he
  rw [values, values, remove]
  show (m.entries.map Prod.snd).Perm (b :: (m.entries.filter (·.1 ≠ a)).map Prod.snd)
  rw [heq, List.filter_append, List.filter_cons_of_neg (by simp), hkeep l hl, hkeep r hr,
    List.map_append, List.map_cons, List.map_append]
  exact List.perm_middle

theorem get_remove (m : LinkedMap α β) (a c : α) :
    (m.remove a).get c = if c = a then none else m.get c := by
  refine Option.ext fun b => ?_
  rw [← mem_entries]
  show (c, b) ∈ m.entries.filter (·.1 ≠ a) ↔ _
  rw [List.mem_filter, mem_entries]
  by_cases hc : c = a <;> simp [hc]

end LinkedMap

end InsertionOrder
