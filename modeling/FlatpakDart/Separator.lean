/-
Cutting a list at a separator, and splitting it at every one.

* `cut_eq_cut` — two cuts of one list are the same, or one is further on;
* `cut_unique` — there is one cut if the first part does not hold the separator;
* `cut_after_beginning` — a cut of a list whose beginning does not hold it;
* `splitOn_lines` — parts that each end in the separator are read back;
* `splitOn_flatMap` — to split what the elements are encoded as is to split the list, if
  the code of the separator occurs in no other;
* `Guarded.mem_splitOn_iff` — where every separator is escaped, only the last part can be a
  word that does not end in the escape character.
-/
import Mathlib.Data.List.Basic

namespace Separator

variable {α : Type*} {s : α}

/-- Two cuts of one list: the same, or the first one later, or the second one. -/
theorem cut_eq_cut {x y x' y' : List α} :
    x ++ s :: y = x' ++ s :: y' ↔
      (x = x' ∧ y = y') ∨ (∃ m, x = x' ++ s :: m ∧ y' = m ++ s :: y) ∨
        ∃ m, x' = x ++ s :: m ∧ y = m ++ s :: y' := by
  constructor
  · intro h
    rcases List.append_eq_append_iff.mp h with ⟨m, hx, hy⟩ | ⟨m, hx, hy⟩
    · cases m with
      | nil =>
        rw [List.append_nil] at hx
        rw [List.nil_append] at hy
        exact .inl ⟨hx.symm, (List.cons_eq_cons.mp hy).2⟩
      | cons c m =>
        obtain ⟨rfl, rfl⟩ := List.cons_eq_cons.mp hy
        exact .inr (.inr ⟨m, hx, rfl⟩)
    · cases m with
      | nil =>
        rw [List.append_nil] at hx
        rw [List.nil_append] at hy
        exact .inl ⟨hx, (List.cons_eq_cons.mp hy).2.symm⟩
      | cons c m =>
        obtain ⟨rfl, rfl⟩ := List.cons_eq_cons.mp hy
        exact .inr (.inl ⟨m, hx, rfl⟩)
  · rintro (⟨rfl, rfl⟩ | ⟨m, rfl, rfl⟩ | ⟨m, rfl, rfl⟩)
    · rfl
    · simp
    · simp

theorem cut_unique {x y x' y' : List α} (hx : s ∉ x) (hx' : s ∉ x') :
    x ++ s :: y = x' ++ s :: y' ↔ x = x' ∧ y = y' := by
  rw [cut_eq_cut]
  constructor
  · rintro (h | ⟨m, rfl, -⟩ | ⟨m, rfl, -⟩)
    · exact h
    · exact absurd (by simp) hx
    · exact absurd (by simp) hx'
  · exact Or.inl

/-- The cut lies behind a beginning that does not hold the separator. -/
theorem cut_after_beginning {p z m y : List α} (hp : s ∉ p) :
    p ++ z = m ++ s :: y ↔ ∃ w, m = p ++ w ∧ z = w ++ s :: y := by
  constructor
  · intro h
    rcases List.append_eq_append_iff.mp h with ⟨w, hm, hz⟩ | ⟨w, hpm, hy⟩
    · exact ⟨w, hm, hz⟩
    · cases w with
      | nil => exact ⟨[], by simp [hpm], by simpa using hy.symm⟩
      | cons c w =>
        -- the separator would be in the beginning
        obtain ⟨rfl, -⟩ := List.cons_eq_cons.mp hy
        exact absurd (by simp [hpm]) hp
  · rintro ⟨w, rfl, rfl⟩
    simp

/-! ### Splitting -/

section

variable {β : Type*} [DecidableEq α] [DecidableEq β]

/-- A beginning without the separator goes into the first part. -/
theorem splitOn_append_of_not_mem {b : β} {front : List β} (h : b ∉ front) (rest : List β) :
    (front ++ rest).splitOn b = (rest.splitOn b).modifyHead (front ++ ·) := by
  induction front with
  | nil => exact (congrFun List.modifyHead_id _).symm
  | cons x front ih =>
    obtain ⟨hx, hfront⟩ := not_or.mp (mt List.mem_cons.mpr h)
    rw [List.cons_append, List.splitOn_cons_eq_if_modifyHead, if_neg (by simpa using Ne.symm hx),
      ih hfront, List.modifyHead_modifyHead]
    rfl

/-- Parts with the separator behind each are read back, and an empty one after them. -/
theorem splitOn_lines {b : β} {parts : List (List β)} (h : ∀ part ∈ parts, b ∉ part) :
    (parts.flatMap (· ++ [b])).splitOn b = parts ++ [[]] := by
  induction parts with
  | nil => rfl
  | cons part parts ih =>
    rw [List.flatMap_cons, List.append_assoc, List.singleton_append,
      List.splitOn_append_cons_self, List.splitOn_eq_singleton (h part List.mem_cons_self),
      ih fun q hq => h q (List.mem_cons_of_mem part hq)]
    rfl

/-- The parts hold what the list does, less the separator. -/
theorem of_mem_splitOn {a x : α} {l part : List α} (hpart : part ∈ l.splitOn a)
    (hx : x ∈ part) : x ∈ l ∧ x ≠ a := by
  induction l generalizing part with
  | nil =>
    rw [List.splitOn_nil, List.mem_singleton] at hpart
    rw [hpart] at hx
    cases hx
  | cons y l ih =>
    rw [List.splitOn_cons_eq_if_modifyHead] at hpart
    have hlater : ∀ {part}, part ∈ l.splitOn a → x ∈ part → x ∈ y :: l ∧ x ≠ a := fun h hx =>
      ⟨List.mem_cons_of_mem y (ih h hx).1, (ih h hx).2⟩
    split at hpart
    · rcases List.mem_cons.mp hpart with rfl | hpart
      · cases hx
      · exact hlater hpart hx
    · next hy =>
      obtain ⟨first, parts, hparts⟩ := List.exists_cons_of_ne_nil (List.splitOn_ne_nil a l)
      rw [hparts, List.modifyHead_cons] at hpart
      rcases List.mem_cons.mp hpart with rfl | hpart
      · rcases List.mem_cons.mp hx with rfl | hx
        · exact ⟨List.mem_cons_self, by simpa using hy⟩
        · exact hlater (hparts ▸ List.mem_cons_self) hx
      · exact hlater (hparts ▸ List.mem_cons_of_mem first hpart) hx

theorem mem_splitOn_of_mem {a x : α} {l : List α} (hx : x ∈ l) (hne : x ≠ a) :
    ∃ part ∈ l.splitOn a, x ∈ part := by
  induction l with
  | nil => cases hx
  | cons y l ih =>
    rw [List.splitOn_cons_eq_if_modifyHead]
    split
    · next hy =>
      have hxl : x ∈ l := (List.mem_cons.mp hx).resolve_left fun h =>
        hne (h.trans (by simpa using hy))
      obtain ⟨part, hpart, hx⟩ := ih hxl
      exact ⟨part, List.mem_cons_of_mem [] hpart, hx⟩
    · obtain ⟨first, parts, hparts⟩ := List.exists_cons_of_ne_nil (List.splitOn_ne_nil a l)
      rw [hparts, List.modifyHead_cons]
      rcases List.mem_cons.mp hx with rfl | hx
      · exact ⟨_, List.mem_cons_self, List.mem_cons_self⟩
      · obtain ⟨part, hpart, hx⟩ := ih hx
        rw [hparts] at hpart
        rcases List.mem_cons.mp hpart with rfl | hpart
        · exact ⟨_, List.mem_cons_self, List.mem_cons_of_mem y hx⟩
        · exact ⟨part, List.mem_cons_of_mem _ hpart, hx⟩

/-- What is in front of a list reaches no further than its first part. -/
theorem splitOn_append_congr {b : β} {s t : List β} {parts : List (List β)}
    (h : s.splitOn b = t.splitOn b ++ parts) (front : List β) :
    (front ++ s).splitOn b = (front ++ t).splitOn b ++ parts := by
  induction front with
  | nil => exact h
  | cons x front ih =>
    rw [List.cons_append, List.cons_append, List.splitOn_cons_eq_if_modifyHead,
      List.splitOn_cons_eq_if_modifyHead, ih]
    split
    · rfl
    · obtain ⟨first, more, hmore⟩ :=
        List.exists_cons_of_ne_nil (List.splitOn_ne_nil b (front ++ t))
      rw [hmore]
      rfl

/-- **An encoded list** is split within the codes of its parts. -/
theorem splitOn_flatMap_eq {g : α → List β} {a : α} {b : β} (ha : g a = [b]) (l : List α) :
    (l.flatMap g).splitOn b = (l.splitOn a).flatMap fun part => (part.flatMap g).splitOn b := by
  induction l with
  | nil => rfl
  | cons x l ih =>
    rw [List.flatMap_cons, List.splitOn_cons_eq_if_modifyHead]
    by_cases hx : x = a
    · subst hx
      rw [ha, List.singleton_append, List.splitOn_cons_eq_if_modifyHead, if_pos (by simp),
        if_pos (by simp), ih]
      rfl
    · obtain ⟨part, parts, hparts⟩ := List.exists_cons_of_ne_nil (List.splitOn_ne_nil a l)
      rw [hparts, List.flatMap_cons] at ih
      rw [if_neg (by simpa using hx), hparts, List.modifyHead_cons, List.flatMap_cons,
        List.flatMap_cons]
      exact splitOn_append_congr ih (g x)

/-- **The parts of an encoded list** are the encoded parts of the list. -/
theorem splitOn_flatMap {g : α → List β} {a : α} {b : β} (ha : g a = [b]) {l : List α}
    (hne : ∀ x ∈ l, x ≠ a → b ∉ g x) :
    (l.flatMap g).splitOn b = (l.splitOn a).map (List.flatMap g) := by
  rw [splitOn_flatMap_eq ha, List.map_eq_flatMap]
  refine List.flatMap_congr fun part hpart => List.splitOn_eq_singleton fun hb => ?_
  obtain ⟨x, hx, hb⟩ := List.mem_flatMap.mp hb
  obtain ⟨hmem, hxa⟩ := of_mem_splitOn hpart hx
  exact hne x hmem hxa hb

/-- The first part is the beginning of the list. -/
theorem head_splitOn_prefix_of {a : α} {l part : List α} (h : (l.splitOn a).head? = some part) :
    part <+: l := by
  obtain ⟨parts, hparts⟩ := List.head?_eq_some_iff.mp h
  have hl : List.intercalate [a] (l.splitOn a) = l := List.intercalate_splitOn a
  rw [← hl, hparts]
  cases parts with
  | nil => simp
  | cons next parts => simp [List.intercalate]

end

/-! ### Escaped separators -/

section

variable {β : Type*}

/-- In front of each separator there is an escape character. -/
def Guarded (b c : β) (t : List β) : Prop := ∀ u v, t = u ++ b :: v → u.getLast? = some c

namespace Guarded

variable {b c : β} {s t : List β}

theorem append (hs : Guarded b c s) (ht : Guarded b c t) : Guarded b c (s ++ t) := by
  intro u v h
  rcases List.append_eq_append_iff.mp h with ⟨w, rfl, hw⟩ | ⟨w, hsu, hw⟩
  · have hlast := ht w v hw
    rw [List.getLast?_append, hlast, Option.some_or]
  · cases w with
    | nil =>
      have hlast := ht [] v hw.symm
      cases hlast
    | cons x w =>
      obtain ⟨rfl, -⟩ := List.cons_eq_cons.mp hw
      exact hs u w hsu

theorem flatMap {g : α → List β} {l : List α} (h : ∀ x ∈ l, Guarded b c (g x)) :
    Guarded b c (l.flatMap g) := by
  induction l with
  | nil =>
    intro u v hnil
    simp at hnil
  | cons x l ih =>
    rw [List.flatMap_cons]
    exact (h x List.mem_cons_self).append (ih fun y hy => h y (List.mem_cons_of_mem x hy))

theorem of_not_mem (h : b ∉ t) : Guarded b c t :=
  fun _ _ ht => absurd (ht ▸ List.mem_append_right _ List.mem_cons_self) h

theorem escaped (h : c ≠ b) : Guarded b c [c, b] := by
  intro u v ht
  cases u with
  | nil => exact absurd (List.cons_eq_cons.mp ht).1 h
  | cons x u =>
    obtain ⟨rfl, hrest⟩ := List.cons_eq_cons.mp ht
    cases u with
    | nil => rfl
    | cons y u => simp at hrest

/-- What is behind a separator. -/
theorem tail {u v : List β} (h : c ≠ b) (ht : Guarded b c (u ++ b :: v)) : Guarded b c v := by
  intro u' v' hv
  have hlast := ht (u ++ b :: u') v' (by simp [hv])
  rw [List.getLast?_append_of_ne_nil _ (List.cons_ne_nil b u')] at hlast
  cases u' with
  | nil => exact absurd (Option.some.inj hlast).symm h
  | cons x u' => rwa [List.getLast?_cons_cons] at hlast

/-- **A part that does not end in the escape character** is the last one, and the list, or
right behind an escaped separator. -/
theorem mem_splitOn_iff [DecidableEq β] (h : c ≠ b) (ht : Guarded b c t) {w : List β} (hb : b ∉ w)
    (hlast : w.getLast? ≠ some c) : w ∈ t.splitOn b ↔ t = w ∨ [c, b] ++ w <:+ t := by
  constructor
  · intro hw
    induction hlength : t.length using Nat.strongRecOn generalizing t with
    | ind n ih =>
      by_cases hmem : b ∈ t
      · obtain ⟨u, v, rfl, hu⟩ := List.eq_append_cons_of_mem hmem
        have hguard := ht u v rfl
        rw [List.splitOn_append_cons_self, List.splitOn_eq_singleton hu, List.singleton_append,
          List.mem_cons] at hw
        rcases hw with rfl | hw
        · exact absurd hguard hlast
        · obtain ⟨u, rfl⟩ := List.getLast?_eq_some_iff.mp hguard
          have hv := ih v.length (by simp at hlength; omega) (ht.tail h) hw rfl
          rcases hv with rfl | hv
          · exact .inr ⟨u, by simp⟩
          · exact .inr (hv.trans ⟨u ++ [c, b], by simp⟩)
      · rw [List.splitOn_eq_singleton hmem, List.mem_singleton] at hw
        exact .inl hw.symm
  · rintro (rfl | ⟨u, rfl⟩)
    · rw [List.splitOn_eq_singleton hb]
      exact List.mem_cons_self
    · have hsplit : u ++ ([c, b] ++ w) = (u ++ [c]) ++ b :: w := by simp
      rw [hsplit, List.splitOn_append_cons_self, List.splitOn_eq_singleton hb]
      exact List.mem_append_right _ List.mem_cons_self

end Guarded

end

end Separator
