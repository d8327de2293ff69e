/-
What a forced removal leaves behind when it fails
(`native/src/user_remote_bridge.cpp`, `lib/src/remote_manager.dart`).

`remove(name, force: true)` disables the remote and saves this before it removes
it; the removal may still fail.

* `disableFirst_eq_self_iff` — when the first half changes nothing;
* `forceRemove_atomic_iff` — a forced removal that completes with an error leaves
  every remote as it was exactly then.
-/
import FlatpakDart.RemoteModify
import Mathlib.Data.List.Nodup

open Libflatpak RemoteBridge Dart
open RemoteModify (oneHost filtered)

namespace RemoteManager

variable {δ : Type}

/-! ### The first half -/

/-- Every remote of the name is, in all its properties, the one that is found and
disabled. -/
def AlreadyDisabled (rs : Remotes) (name : CString) : Prop :=
  ∀ r, rs.find? (·.name = name) = some r →
    ∀ x ∈ rs, x.name = name → x = { r with disabled := some true }

/-- Disabling the remote changes nothing: it is not found, its change is not saved,
or it is disabled already. -/
def DisablesNothing (env : Environment) (rs : Remotes) (name : CString) : Prop :=
  env.get.fails = true ∨ env.disable.fails = true ∨ AlreadyDisabled rs name

/-- Replacing the remotes of a name changes nothing if they are the new one. -/
theorem replace_eq_self_iff {rs : Remotes} {name : CString} {new : Remote} :
    (rs.map fun x => if x.name = name then new else x) = rs ↔
      ∀ x ∈ rs, x.name = name → x = new := by
  conv_lhs => rhs; rw [← List.map_id rs]
  rw [List.map_inj_left]
  refine forall₂_congr fun x _ => ?_
  split_ifs with h
  · exact ⟨fun heq _ => heq.symm, fun heq => (heq h).symm⟩
  · exact iff_of_true rfl fun h' => absurd h' h

variable [DecidableEq δ]

/-- **The first half changes nothing** exactly if there is nothing to disable. -/
theorem disableFirst_eq_self_iff (b : Handle δ) (name : CString) (env : Environment) (w : World δ) :
    disableFirst b name env w = w ↔ DisablesNothing env (w b.installation) name := by
  rw [disableFirst, getRemoteByName, DisablesNothing]
  by_cases hget : env.get.fails = true
  · simp [hget]
  rw [if_neg hget]
  cases hfind : (w b.installation).find? (·.name = name) with
  | none =>
    refine iff_of_true rfl (.inr (.inr fun r hr => ?_))
    rw [hfind] at hr
    cases hr
  | some r =>
    have hrname : r.name = name := by simpa using List.find?_some hfind
    by_cases hdisable : env.disable.fails = true
    · simp [modifyRemote, hdisable]
    have halready : AlreadyDisabled (w b.installation) name ↔
        ∀ x ∈ w b.installation, x.name = name → x = { r with disabled := some true } := by
      refine ⟨fun h => h r hfind, fun h r' hr' => ?_⟩
      obtain rfl := Option.some.inj (hfind.symm.trans hr')
      exact h
    simp only [modifyRemote, hdisable, hget, Bool.false_eq_true, if_false, false_or, halready,
      Function.update_eq_self_iff, hrname, replace_eq_self_iff]

/-! ### The removal -/

/-- What a removal that completes with an error has done. -/
theorem finish_error {b : Handle δ} {w w' : World δ} {r : Except CString Remotes}
    {frames : List (List UInt8)} {err : String} (h : b.finish w r = (w', frames))
    (herr : listenForResult frames = some (.error err)) : w' = w := by
  cases r with
  | ok rs =>
    obtain ⟨-, rfl⟩ := Prod.mk.inj h
    rw [listenForResult_ok] at herr
    cases herr
  | error msg => exact (Prod.mk.inj h).1.symm

/-- **A forced removal that fails leaves every remote as it was** exactly if there
was nothing to disable. -/
theorem forceRemove_atomic_iff {m : FlatpakRemoteManager} {host : Host δ} {name : String}
    {env : Environment} {w w' : World δ} {frames : List (List UInt8)} {err : String}
    (h : m.remove host name true env w = some (w', frames))
    (herr : listenForResult frames = some (.error err)) :
    w' = w ↔ DisablesNothing env (w (m.writeDir host)) (.ofString name) := by
  rw [FlatpakRemoteManager.remove] at h
  obtain ⟨b, hb, hw⟩ := Option.map_eq_some_iff.mp h
  rw [flatpakSystemRemoteRemove, ite_self, flatpakUserRemoteRemove, if_pos rfl] at hw
  obtain rfl := finish_error hw herr
  rw [← FlatpakRemoteManager.installation_of_remoteCreate hb]
  exact disableFirst_eq_self_iff b (.ofString name) env w

/-! ### A remote that is in use -/

/-- Only the removal fails. -/
def inUse : Environment := { smooth with call := { smooth.call with fails := true } }

/-- The remote is kept, and it is disabled. -/
theorem remove_inUse (R : Remote) (hname : R.name = .ofString "origin") :
    FlatpakClient.user.remotes.remove oneHost "origin" true inUse (fun _ => [R]) =
      some (fun _ => [{ R with disabled := some true }], [postError inUse.call.message]) := by
  have hget : getRemoteByName inUse.get [R] (.ofString "origin") = .ok R := by
    simp [getRemoteByName, inUse, smooth, hname]
  have hmodify : modifyRemote inUse.disable [R] { R with disabled := some true } =
      .ok [{ R with disabled := some true }] := by
    simp [modifyRemote, inUse, smooth]
  have hremove : ∀ rs name, removeRemote inUse.call rs name = .error inUse.call.message :=
    fun rs name => by simp [removeRemote, inUse]
  have hupdate : Function.update (fun _ : Unit => [R]) () [{ R with disabled := some true }] =
      fun _ => [{ R with disabled := some true }] := funext fun _ => rfl
  have hcreate : FlatpakClient.user.remotes.remoteCreate oneHost inUse = some ⟨()⟩ := rfl
  rw [FlatpakRemoteManager.remove, hcreate]
  simp only [flatpakSystemRemoteRemove, ite_self, flatpakUserRemoteRemove, disableFirst, if_true,
    hget, hmodify, hremove, hupdate, Option.map_some]
  rfl

theorem listenForResult_inUse :
    listenForResult [postError inUse.call.message] = some (.error "failed") := by
  decide +kernel

/-- A remote that is disabled already stays as it is. -/
theorem forceRemove_disabled : ∃ w' frames,
    FlatpakClient.user.remotes.remove oneHost "origin" true inUse
        (fun _ => [{ filtered with disabled := some true }]) = some (w', frames) ∧
      w' = fun _ => [{ filtered with disabled := some true }] := by
  have hremove := remove_inUse { filtered with disabled := some true } rfl
  refine ⟨_, _, hremove, (forceRemove_atomic_iff hremove listenForResult_inUse).mpr ?_⟩
  refine .inr (.inr fun r hr x hx _ => ?_)
  obtain rfl := List.mem_singleton.mp hx
  obtain rfl := List.mem_singleton.mp (List.mem_of_find?_eq_some hr)
  rfl

/-- An enabled one is left disabled by a removal that fails. -/
theorem forceRemove_disables :
    ¬ ∀ (m : FlatpakRemoteManager) (host : Host Unit) (name : String) (env : Environment)
      (w w' : World Unit) (frames : List (List UInt8)) (err : String),
      m.remove host name true env w = some (w', frames) →
      listenForResult frames = some (.error err) → w' = w := by
  intro h
  have hsame := h _ _ _ _ _ _ _ _ (remove_inUse filtered rfl) listenForResult_inUse
  have hdisabled := congrArg (fun w : World Unit => (w ()).map Remote.disabled) hsame
  revert hdisabled
  decide +kernel

end RemoteManager
