/-
Handles that are made, read through and destroyed.

A log is what was done with handles, in order; a pointer may be null.  In a
disciplined log nothing is read through a null pointer, before the handle is
made, or after it is destroyed, and nothing is destroyed twice:

* `disciplined_iff` — the discipline, as a property of each event and as one of
  the whole log;
* `disciplined_append_iff` — a log goes on disciplined exactly if each further
  event fits.
-/
import Mathlib.Data.List.Induction
import Mathlib.Data.List.Nodup

namespace HandleLog

variable {H : Type*}

inductive Event (H : Type*)
  | make (h : H)
  /-- reads through a pointer -/
  | touch (p : Option H)
  | destroy (h : H)
  deriving DecidableEq

def Event.made : Event H → Option H
  | .make h => some h
  | _ => none

def Event.destroyed : Event H → Option H
  | .destroy h => some h
  | _ => none

/-- The handles made so far. -/
def made (log : List (Event H)) : List H := log.filterMap Event.made

/-- The handles destroyed so far. -/
def destroyed (log : List (Event H)) : List H := log.filterMap Event.destroyed

@[simp] theorem made_nil : made ([] : List (Event H)) = [] := rfl

@[simp] theorem made_append (log es : List (Event H)) : made (log ++ es) = made log ++ made es :=
  List.filterMap_append

@[simp] theorem made_cons_make (h : H) (es : List (Event H)) :
    made (.make h :: es) = h :: made es := rfl

@[simp] theorem made_cons_touch (p : Option H) (es : List (Event H)) :
    made (.touch p :: es) = made es := rfl

@[simp] theorem made_cons_destroy (h : H) (es : List (Event H)) :
    made (.destroy h :: es) = made es := rfl

@[simp] theorem destroyed_nil : destroyed ([] : List (Event H)) = [] := rfl

@[simp] theorem destroyed_append (log es : List (Event H)) :
    destroyed (log ++ es) = destroyed log ++ destroyed es := List.filterMap_append

@[simp] theorem destroyed_cons_make (h : H) (es : List (Event H)) :
    destroyed (.make h :: es) = destroyed es := rfl

@[simp] theorem destroyed_cons_touch (p : Option H) (es : List (Event H)) :
    destroyed (.touch p :: es) = destroyed es := rfl

@[simp] theorem destroyed_cons_destroy (h : H) (es : List (Event H)) :
    destroyed (.destroy h :: es) = h :: destroyed es := rfl

@[simp] theorem destroyed_replicate_touch (n : ℕ) (p : Option H) :
    destroyed (List.replicate n (.touch p)) = [] := by
  induction n with
  | zero => rfl
  | succ n ih => rw [List.replicate_succ, destroyed_cons_touch, ih]

theorem not_mem_destroyed_append {log es : List (Event H)} {h : H} (hlog : h ∉ destroyed log)
    (hes : h ∉ destroyed es) : h ∉ destroyed (log ++ es) := by
  rw [destroyed_append, List.mem_append, not_or]
  exact ⟨hlog, hes⟩

/-- Made, and not yet destroyed. -/
def Live (log : List (Event H)) (h : H) : Prop := h ∈ made log ∧ h ∉ destroyed log

/-- The event may come next. -/
def Fits (log : List (Event H)) : Event H → Prop
  | .make _ => True
  | .touch p => ∃ h, p = some h ∧ Live log h
  | .destroy h => h ∉ destroyed log

/-- The events may come next, one after the other. -/
def FitsAll (log : List (Event H)) : List (Event H) → Prop
  | [] => True
  | e :: es => Fits log e ∧ FitsAll (log ++ [e]) es

@[simp] theorem fitsAll_nil (log : List (Event H)) : FitsAll log [] := trivial

theorem fitsAll_append (log es fs : List (Event H)) :
    FitsAll log (es ++ fs) ↔ FitsAll log es ∧ FitsAll (log ++ es) fs := by
  induction es generalizing log with
  | nil => simp
  | cons e es ih => simp [FitsAll, ih, and_assoc]

/-- A destructor reads through the handle it destroys. -/
theorem fitsAll_touch_destroy (log : List (Event H)) (h : H) :
    FitsAll log [.touch (some h), .destroy h] ↔ Live log h := by
  simp [FitsAll, Fits, Live]

theorem Live.append {log es : List (Event H)} {h : H} (hlive : Live log h)
    (hes : h ∉ destroyed es) : Live (log ++ es) h := by
  refine ⟨?_, not_mem_destroyed_append hlive.2 hes⟩
  rw [made_append]
  exact List.mem_append_left _ hlive.1

/-- Whatever is live may be touched, in any order. -/
theorem fitsAll_touches {log es : List (Event H)}
    (h : ∀ e ∈ es, ∃ k, e = .touch (some k) ∧ Live log k) : FitsAll log es := by
  induction es generalizing log with
  | nil => trivial
  | cons e es ih =>
    obtain ⟨k, rfl, hlive⟩ := h e List.mem_cons_self
    refine ⟨⟨k, rfl, hlive⟩, ih fun d hd => ?_⟩
    obtain ⟨l, rfl, hlive⟩ := h d (List.mem_cons_of_mem _ hd)
    exact ⟨l, rfl, hlive.append (by simp)⟩

/-- Every event came when it might. -/
def Disciplined (log : List (Event H)) : Prop := FitsAll [] log

theorem disciplined_append_iff (log es : List (Event H)) :
    Disciplined (log ++ es) ↔ Disciplined log ∧ FitsAll log es := by
  rw [Disciplined, fitsAll_append, List.nil_append]
  rfl

theorem Disciplined.initial {log es : List (Event H)} (h : Disciplined (log ++ es)) :
    Disciplined log := ((disciplined_append_iff log es).mp h).1

/-- The discipline as it is seen in the whole log. -/
theorem disciplined_iff (log : List (Event H)) :
    Disciplined log ↔
      (∀ before p after, log = before ++ .touch p :: after → ∃ h, p = some h ∧ Live before h) ∧
        (destroyed log).Nodup := by
  induction log using List.reverseRecOn with
  | nil => simp [Disciplined]
  | append_singleton log e ih =>
    rw [disciplined_append_iff, ih, FitsAll]
    constructor
    · rintro ⟨⟨htouch, hnodup⟩, hfits, -⟩
      constructor
      · intro before p after heq
        rcases List.eq_nil_or_concat after with rfl | ⟨after, d, rfl⟩
        · -- the touch is the new event
          obtain ⟨rfl, he⟩ := List.append_inj' heq rfl
          obtain ⟨rfl, -⟩ := List.cons_eq_cons.mp he
          exact hfits
        · refine htouch before p after ?_
          rw [List.concat_eq_append, ← List.cons_append, ← List.append_assoc] at heq
          exact (List.append_inj' heq rfl).1
      · rw [destroyed_append]
        cases e with
        | make h => simpa using hnodup
        | touch p => simpa using hnodup
        | destroy h =>
          exact hnodup.append (List.nodup_singleton h) (List.disjoint_singleton.mpr hfits)
    · rintro ⟨htouch, hnodup⟩
      rw [destroyed_append, List.nodup_append'] at hnodup
      refine ⟨⟨fun before p after heq => htouch before p (after ++ [e]) (by simp [heq]),
        hnodup.1⟩, ?_, trivial⟩
      cases e with
      | make h => trivial
      | touch p => exact htouch log p [] rfl
      | destroy h =>
        intro hmem
        exact hnodup.2.2 hmem (List.mem_singleton_self h)

end HandleLog
