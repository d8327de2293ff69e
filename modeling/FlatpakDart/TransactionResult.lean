/-
When the `result` of a transaction settles.

A rejected add posts its error on the transaction's port and `txSubmit` enqueues
the transaction all the same, so the listener settles `result` on the add's
error while the transaction is still to run.

* `result_sound_iff` — a port gets its one terminal frame last, and `result`
  settles only once the transaction is neither queued nor running, exactly if no
  add of it was rejected;
* `rejected_add_applied` — a transaction reported failed, and then applied.
-/
import FlatpakDart.TransactionCancel

open TransactionWorker

namespace TransactionBridge

/-- Queued, or in hand with its result not posted yet. -/
def Active (s : State) (k : ℕ) : Prop := Queued s k ∨ k ∈ s.worker.loop.unanswered

/-- `result` has completed, with a value or an error. -/
def Settled (s : State) (k : ℕ) : Prop := (s.listeners k).result ≠ .pending

/-- What the `result` of transaction `k` promises, along the run `as` to `s`. -/
structure ResultSound (as : List Action) (s : State) (k : ℕ) : Prop where
  /-- all progress frames, then the one terminal frame -/
  frames : Completed s k → ∃ progress r, s.worker.posts k = progress ++ [r] ∧
    (∀ f ∈ progress, isProgress f) ∧ isTerminal r
  /-- no state of the run has `result` settled and the transaction to do -/
  settles : ∀ u, Machine.Reaches step init as u → Settled u k → ¬ Active u k

/-! ### Rejections stay -/

theorem step_rejected {s t : State} {a : Action} (h : step s a = some t) (hs : Inv s) (k : ℕ) :
    s.worker.rejected k <+: t.worker.rejected k := by
  cases step_cases hs.handles h with
  | @create answer halive => cases answer <;> exact List.prefix_refl _
  | @add j op answer halive hj =>
    have hbody (fallback : CString) :
        s.worker.rejected k <+:
          (s.worker.txAdd op fallback ⟨some ⟨j, j⟩, j⟩ answer).rejected k := by
      cases answer with
      | accepted => exact List.prefix_refl _
      | rejected err =>
        simp only [Worker.txAdd, Function.update_apply]
        split
        · next hk =>
          rw [hk]
          exact List.prefix_append _ _
        · exact List.prefix_refl _
    cases op <;> exact hbody _
  | submit | deliver => exact List.prefix_refl _
  | cancel hk hdtor =>
    rw [cancelCurrent_eq]
  | loop hw => cases loopStep_cases hw <;> exact List.prefix_refl _
  | dtorStop hw =>
    obtain ⟨-, rfl⟩ := dtorStop_cases hw
    exact List.prefix_refl _
  | dtorJoin hw =>
    obtain ⟨-, -, rfl⟩ := dtorJoin_cases hw
    exact List.prefix_refl _

theorem run_rejected {s t : State} {as : List Action} (h : Machine.run step s as = some t)
    (hs : Inv s) (k : ℕ) : s.worker.rejected k <+: t.worker.rejected k := by
  have hkept := Machine.run_invariant
    (I := fun u => Inv u ∧ s.worker.rejected k <+: u.worker.rejected k)
    (fun hstep hu => ⟨step_inv hstep hu.1, hu.2.trans (step_rejected hstep hu.1 k)⟩)
    h ⟨hs, List.prefix_refl _⟩
  exact hkept.2

/-! ### Without rejections, `result` follows the run -/

theorem completed_not_active {s : State} (hs : Inv s) {k : ℕ} (h : Completed s k) :
    ¬ Active s k := by
  obtain ⟨hunanswered, hqueue⟩ := hs.worker.answered_not_pending h
  rintro (hqueued | hrunning)
  · exact hqueue (List.mem_map_of_mem (f := PendingTx.tx) hqueued)
  · exact hunanswered hrunning

theorem settled_completed {s : State} (hs : Inv s) {k : ℕ} (hrejected : s.worker.rejected k = [])
    (h : Settled s k) : Completed s k := by
  obtain ⟨f, hf, hterminal⟩ := hs.settled k h
  have hframed : Framed s.worker k := hs.framed k (by simp [hs.listening k h])
  rw [Framed, hrejected] at hframed
  exact hframed.answered_of_terminal hf hterminal

/-- A completed transaction has been submitted. -/
theorem completed_framed {s : State} (hs : Inv s) {k : ℕ} (h : Completed s k) :
    Framed s.worker k := by
  have hmem : k ∈ s.worker.enqueued.map PendingTx.tx := by
    rw [hs.worker.places]
    exact List.mem_append_left _ h
  obtain ⟨x, hx, rfl⟩ := List.mem_map.mp hmem
  exact hs.framed x.tx (by simp [hs.submitted x hx])

theorem resultSound_of_unrejected {s : State} {as : List Action}
    (h : Machine.run step init as = some s) {k : ℕ} (hrejected : s.worker.rejected k = []) :
    ResultSound as s k := by
  refine ⟨?_, ?_⟩
  · intro hcompleted
    have hframed := completed_framed (run_inv h) hcompleted
    rw [Framed, hrejected] at hframed
    exact hframed.result_last hcompleted
  · rintro u ⟨before, after, rfl, hbefore⟩ hsettled
    obtain ⟨u', hu', hafter⟩ := Machine.run_append_eq_some.mp h
    obtain rfl := Option.some_inj.mp (hbefore.symm.trans hu')
    have hu : Inv u := run_inv hbefore
    -- a rejection would have stayed to the end of the run
    have hbegins := run_rejected hafter hu k
    rw [hrejected, List.prefix_nil] at hbegins
    exact completed_not_active hu (settled_completed hu hbegins hsettled)

/-- **`result`**: of a transaction the worker has completed, the promise was
kept along the run if and only if no add of it was rejected; with none rejected
it is kept along every run. -/
theorem result_sound_iff {s : State} {as : List Action} (h : Machine.run step init as = some s)
    (k : ℕ) :
    (Completed s k → (ResultSound as s k ↔ s.worker.rejected k = [])) ∧
    (s.worker.rejected k = [] → ResultSound as s k) := by
  refine ⟨fun hcompleted => ⟨?_, resultSound_of_unrejected h⟩,
    resultSound_of_unrejected h⟩
  intro hsound
  -- one terminal frame for each rejection, and the promise leaves room for one
  have hcount := (completed_framed (run_inv h) hcompleted).terminals_length hcompleted
  obtain ⟨progress, r, hposts, hprogress, hr⟩ := hsound.frames hcompleted
  have hnone : progress.filter isTerminal = [] :=
    List.filter_eq_nil_iff.mpr fun f hf => by simp [Sent.not_isTerminal (hprogress f hf)]
  rw [hposts, List.filter_append, hnone, List.nil_append, List.filter_cons_of_pos hr] at hcount
  exact List.eq_nil_of_length_eq_zero (by simpa using hcount.symm)

/-- Two adds are accepted. -/
def batchRun : List Action :=
  [.create .accepted,
    .add 0 (.install (.lit "flathub" (by decide)) (.lit "app" (by decide))) .accepted,
    .add 0 (.update (.lit "other" (by decide))) .accepted, .submit 0]

/-- The worker runs the batch. -/
def appliedRun : List Action :=
  [.loop .dequeue, .loop .runBegin, .loop (.newOperation .install none),
    .loop (.operationDone .install none), .loop (.runReturn none), .loop .postResult]

/-- The promise is kept of a batch of which no add was rejected. -/
theorem result_sound_quiet :
    ∃ s, Machine.run step init (batchRun ++ appliedRun) = some s ∧ Completed s 0 ∧
      (s.worker.posts 0).map List.head? = [some 0x10, some 0x10, some 0x01] ∧
      ResultSound (batchRun ++ appliedRun) s 0 := by
  obtain ⟨s, hrun, hs⟩ := Machine.exists_run step init (batchRun ++ appliedRun)
    (p := fun s => 0 ∈ s.worker.answered ∧ s.worker.rejected 0 = [] ∧
      (s.worker.posts 0).map List.head? = [some 0x10, some 0x10, some 0x01]) (by decide +kernel)
  obtain ⟨hcompleted, hrejected, hframes⟩ := of_decide_eq_true hs
  exact ⟨s, hrun, hcompleted, hframes, ((result_sound_iff hrun 0).1 hcompleted).mpr hrejected⟩

/-- One add accepted, one rejected, and the error delivered. -/
def rejectedRun : List Action :=
  [.create .accepted,
    .add 0 (.install (.lit "flathub" (by decide)) (.lit "app" (by decide))) .accepted,
    .add 0 (.update (.lit "other" (by decide))) (.rejected none), .submit 0, .deliver 0]

/-- `result` has failed while the transaction is queued; its operations are then
executed, and succeed. -/
theorem rejected_add_applied :
    ∃ u s, Machine.run step init rejectedRun = some u ∧ Machine.run step u appliedRun = some s ∧
      (u.listeners 0).result = .failed ⟨"add_update failed", ""⟩ ∧ Queued u 0 ∧ Succeeded s 0 ∧
      (s.worker.posts 0).map List.head? = [some 0x02, some 0x10, some 0x10, some 0x01] := by
  obtain ⟨u, hrun, hu⟩ := Machine.exists_run step init rejectedRun
    (p := fun u => (u.listeners 0).result = .failed ⟨"add_update failed", ""⟩ ∧
      .of 0 ∈ u.worker.queue ∧ (Machine.run step u appliedRun).any fun s => decide
        ((.of 0, none) ∈ s.worker.outcomes ∧
        (s.worker.posts 0).map List.head? = [some 0x02, some 0x10, some 0x10, some 0x01]))
    (by decide +kernel)
  obtain ⟨hfailed, hqueued, hrest⟩ := of_decide_eq_true hu
  obtain ⟨s, hs, happlied⟩ := (Option.any_eq_true _ _).mp hrest
  obtain ⟨hsucceeded, hframes⟩ := of_decide_eq_true happlied
  exact ⟨u, s, hrun, hs, hfailed, hqueued, hsucceeded, hframes⟩

end TransactionBridge
