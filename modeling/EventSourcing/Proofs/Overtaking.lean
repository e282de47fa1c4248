import EventSourcing.Proofs.Serializability

/-!
# Calls that are overtaken

A save is refused when the stream has grown since the order was opened. So a call that meets a
conflict was overtaken: after its first access and before its save, another call appended to the
stream of the same order.

* `Pool.after` is a run up to a place of its schedule; streams only grow along it, and results stay.
* `Pool.AppendsAt` says that an access of the schedule is an append.
* `Pool.overtaken_of_conflict` finds the append behind every conflict.
-/

namespace EventSourcing

@[simp] theorem Root.execute_committed {A : Aggregate} (root : Root A) (now : Timestamp)
    (command : A.Command) : (root.execute now command).2.committed = root.committed :=
  execute_preserves (P := fun r => r.committed = root.committed)
    (fun r event h => (record_committed r event).trans h) rfl now command

namespace Order

/-! ## Saves of one call -/

namespace Call

variable {c : Call} {store : Store} {p : Program aggregate (Except Failure Nat)}
  {metrics : Metrics} {events : List Event} {root after : Root aggregate} {correlation : Uuid}
  {stamp : Nat → Stamp} {next : Except aggregate.Fault Nat × Root aggregate →
    Program aggregate (Except Failure Nat)}

/-- An order that is open is saved with the committed version that it was opened with. -/
theorem committed_of_carryOut
    (h : c.carryOut Program.access root = .save after correlation stamp next) :
    after.committed = root.committed := by
  have hcommitted := root.execute_committed c.readings.now c.command
  rcases hexecute : root.execute c.readings.now c.command with ⟨_ | n, executed⟩
  · rw [carryOut_of_rejected hexecute] at h
    cases h
  · rw [carryOut_of_accepted hexecute] at h
    cases h
    rw [hexecute] at hcommitted
    exact hcommitted

/-- An order that is open fails by a rejection only, as long as it is not saved. -/
theorem result?_carryOut (fault : Fault Rejection) :
    (c.carryOut Program.access root).result? ≠ some (.error (.kernel fault)) := by
  rcases hexecute : root.execute c.readings.now c.command with ⟨_ | n, executed⟩
  · rw [carryOut_of_rejected hexecute]
    rintro ⟨⟩
  · rw [carryOut_of_accepted hexecute]
    rintro ⟨⟩

theorem committed_of_opened
    (h : c.opened (store.load aggregate c.id) = .save after correlation stamp next) :
    after.committed = (store.stream c.id.identity).length := by
  cases hload : store.load aggregate c.id with
  | error fault =>
    rw [hload] at h
    cases h
  | ok root =>
    rw [hload] at h
    obtain ⟨-, history, hhistory, rfl⟩ := Store.load_eq_ok_iff.1 hload
    exact (committed_of_carryOut h).trans hhistory.length_eq.symm

theorem result?_opened (hrecords : aggregate.Records (store.stream c.id.identity) events)
    {text : String} {expected actual : Nat} :
    (c.opened (store.load aggregate c.id)).result?
      ≠ some (.error (.kernel (.conflict text expected actual))) := by
  by_cases hstream : store.stream c.id.identity = []
  · rw [load_of_absent hstream]
    rintro ⟨⟩
  · rw [load_of_recorded hstream hrecords]
    exact result?_carryOut _

/-- The access before a save finds the stream as long as the root will expect it. -/
theorem Phase.committed_of_step (h : c.Phase store p)
    (hstep : (p.step (store, metrics)).1 = .save root correlation stamp next) :
    root.committed = (store.stream c.id.identity).length := by
  cases h with
  | asking =>
    rw [handle_eq] at hstep
    split at hstep
    · -- a creation that is told the order is not there
      change c.asked (.ok (store.currentVersion c.id.identity)) = _ at hstep
      rw [asked] at hstep
      split at hstep
      · cases hstep
      · next hpos =>
        rw [committed_of_carryOut hstep, ← Store.currentVersion_eq]
        exact (Nat.eq_zero_of_not_pos hpos).symm
    · exact committed_of_opened hstep
  | loading => exact committed_of_opened hstep
  | @saving base history e hbase h =>
    have hsaved : ∀ answer, saved answer ≠ .save root correlation stamp next := by
      rintro ⟨_ | _, _⟩ ⟨⟩
    exact absurd hstep (hsaved _)
  | succeeded version => cases hstep
  | failed h => cases hstep

/-- A conflict is the answer to a save, on a stream that is longer than the root expects. -/
theorem Phase.stale_of_conflict
    (hrecords : aggregate.Records (store.stream c.id.identity) events) (h : c.Phase store p)
    (hpending : p.result? = none) {text : String} {expected actual : Nat}
    (hstep : (p.step (store, metrics)).1.result?
      = some (.error (.kernel (.conflict text expected actual)))) :
    ∃ root correlation stamp next, p = .save root correlation stamp next ∧
      root.committed < (store.stream c.id.identity).length := by
  cases h with
  | asking =>
    rw [handle_eq] at hstep
    split at hstep
    · change (c.asked (.ok (store.currentVersion c.id.identity))).result? = _ at hstep
      rw [asked] at hstep
      split at hstep
      · cases hstep
      · exact absurd hstep (result?_carryOut _)
    · exact absurd hstep (result?_opened hrecords)
  | loading => exact absurd hstep (result?_opened hrecords)
  | @saving base history e hbase h =>
    refine ⟨_, _, _, _, rfl, ?_⟩
    rw [h.root_committed]
    refine lt_of_le_of_ne hbase.length_le fun hlength => ?_
    -- on the whole stream the save succeeds
    have hwhole : base = store.stream c.id.identity := hbase.eq_of_length hlength
    obtain ⟨after, measured, hsave⟩ := h.save_of_current hwhole.symm
    have hsaved := Program.step_save (c.root history e) c.correlation c.readings.stamp saved store
      metrics
    rw [hsave] at hsaved
    rw [hsaved] at hstep
    cases hstep
  | succeeded version => cases hpending
  | failed h => cases hpending

end Call

/-! ## A run up to a place of its schedule -/

namespace Pool

variable {ι : Type} [DecidableEq ι]

/-- A call that is done stays as it is. -/
theorem result_step {pool : Pool ι} {k : ι} {r : Except Failure Nat}
    (h : pool.result k = some r) (j : ι) : (pool.step j).result k = some r := by
  by_cases hjk : k = j
  · subst hjk
    rw [result, programs_step_self, Program.eq_done_of_result? h]
    rfl
  · rw [result_step_of_ne pool hjk]
    exact h

/-- The pool after the first accesses of a schedule. -/
def after (calls : ι → Call) (schedule : List ι) (n : Nat) : Pool ι :=
  run calls (schedule.take n)

variable {calls : ι → Call} {schedule : List ι}

theorem run_concat (calls : ι → Call) (schedule : List ι) (k : ι) :
    run calls (schedule ++ [k]) = (run calls schedule).step k := by
  rw [run, List.foldl_append]
  rfl

theorem after_length : after calls schedule schedule.length = run calls schedule := by
  rw [after, List.take_length]

theorem after_succ {n : Nat} {k : ι} (h : schedule[n]? = some k) :
    after calls schedule (n + 1) = (after calls schedule n).step k := by
  rw [after, List.take_add_one, h]
  exact run_concat calls _ k

/-- Behind its end a schedule makes no more accesses. -/
theorem after_succ_of_none {n : Nat} (h : schedule[n]? = none) :
    after calls schedule (n + 1) = after calls schedule n := by
  rw [after, List.take_add_one, h]
  exact congrArg (run calls) (List.append_nil _)

theorem sound_after (n : Nat) : Sound calls (after calls schedule n) :=
  sound_run calls _

/-- Along a run streams only grow. -/
theorem stream_prefix_after {a b : Nat} (hab : a ≤ b) (id : Id) :
    (after calls schedule a).store.stream id.identity
      <+: (after calls schedule b).store.stream id.identity := by
  induction hab with
  | refl => exact List.prefix_rfl
  | @step b _ ih =>
    refine ih.trans ?_
    cases haccess : schedule[b]? with
    | none =>
      rw [after_succ_of_none haccess]
    | some k =>
      rw [after_succ haccess]
      rcases step_cases (sound_after b) k with ⟨hstore, -, -⟩ | ⟨events, e, -, happended⟩
      · rw [hstore]
      · rw [happended.stream]
        exact List.prefix_append _ _

theorem result_after {a b : Nat} (hab : a ≤ b) {k : ι} {r : Except Failure Nat}
    (h : (after calls schedule a).result k = some r) :
    (after calls schedule b).result k = some r := by
  induction hab with
  | refl => exact h
  | @step b _ ih =>
    cases haccess : schedule[b]? with
    | none =>
      rw [after_succ_of_none haccess]
      exact ih
    | some j =>
      rw [after_succ haccess]
      exact result_step ih j

/-- A call that is done was done by one of its accesses. -/
theorem exists_access_of_result {n : Nat} {k : ι} {r : Except Failure Nat}
    (h : (after calls schedule n).result k = some r) :
    ∃ t < n, schedule[t]? = some k ∧ (after calls schedule t).result k = none ∧
      (after calls schedule (t + 1)).result k = some r := by
  induction n with
  | zero =>
    have hnone : (after calls schedule 0).result k = none := (calls k).result?_handle
    rw [hnone] at h
    cases h
  | succ n ih =>
    by_cases hbefore : (after calls schedule n).result k = some r
    · obtain ⟨t, hlt, ht⟩ := ih hbefore
      exact ⟨t, by omega, ht⟩
    · have hpending : (after calls schedule n).result k = none := by
        cases hresult : (after calls schedule n).result k with
        | none => rfl
        | some r' =>
          rw [result_after (Nat.le_succ n) hresult] at h
          exact absurd (hresult.trans h) hbefore
      refine ⟨n, Nat.lt_succ_self n, ?_, hpending, h⟩
      -- any other access would have left the call pending
      cases haccess : schedule[n]? with
      | none =>
        rw [after_succ_of_none haccess] at h
        exact absurd h hbefore
      | some j =>
        by_cases hj : k = j
        · rw [hj]
        · rw [after_succ haccess, result_step_of_ne _ hj] at h
          exact absurd h hbefore

/-- A call that makes no access is not done. -/
theorem result_of_not_mem {k : ι} (h : k ∉ schedule) : (run calls schedule).result k = none := by
  cases hresult : (run calls schedule).result k with
  | none => rfl
  | some r =>
    rw [← after_length] at hresult
    obtain ⟨t, -, ht, -⟩ := exists_access_of_result hresult
    exact absurd (List.mem_of_getElem? ht) h

/-- The access at a place of a schedule is made by a call, and appends its event. -/
structure AppendsAt (calls : ι → Call) (schedule : List ι) (u : Nat) (j : ι) : Prop where
  access : schedule[u]? = some j
  pending : (after calls schedule u).result j = none
  stream : ∃ e,
    (after calls schedule (u + 1)).store.stream (calls j).id.identity =
      (after calls schedule u).store.stream (calls j).id.identity ++
        [(calls j).envelope
          ((after calls schedule u).store.stream (calls j).id.identity).length e]
  succeeds : ∃ version, (after calls schedule (u + 1)).result j = some (.ok version)

/-- An access that changes a stream is an append to it. -/
theorem appendsAt_of_stream_ne {u : Nat} {id : Id}
    (h : (after calls schedule (u + 1)).store.stream id.identity
      ≠ (after calls schedule u).store.stream id.identity) :
    ∃ j, AppendsAt calls schedule u j ∧ (calls j).id = id := by
  cases haccess : schedule[u]? with
  | none =>
    rw [after_succ_of_none haccess] at h
    exact absurd rfl h
  | some j =>
    rcases step_cases (sound_after u) j with ⟨hstore, -, -⟩ | ⟨events, e, -, happended⟩
    · rw [after_succ haccess, hstore] at h
      exact absurd rfl h
    · have hid : id = (calls j).id := by
        by_contra hne
        rw [after_succ haccess, happended.stream, if_neg hne, List.append_nil] at h
        exact h rfl
      refine ⟨j, ⟨haccess, happended.pending, ⟨e, ?_⟩, ?_⟩, hid.symm⟩
      · rw [after_succ haccess, happended.stream, if_pos rfl]
      · rw [after_succ haccess, happended.result]
        exact ⟨_, rfl⟩

/-- When a stream has grown, one of the accesses in between appended to it. -/
theorem exists_appendsAt {a b : Nat} (hab : a ≤ b) {id : Id}
    (hlt : ((after calls schedule a).store.stream id.identity).length
      < ((after calls schedule b).store.stream id.identity).length) :
    ∃ u j, a ≤ u ∧ u < b ∧ AppendsAt calls schedule u j ∧ (calls j).id = id := by
  induction hab with
  | refl => exact absurd hlt (lt_irrefl _)
  | @step b hle ih =>
    by_cases hsame : (after calls schedule (b + 1)).store.stream id.identity
        = (after calls schedule b).store.stream id.identity
    · rw [Nat.succ_eq_add_one, hsame] at hlt
      obtain ⟨u, j, hau, hub, hu⟩ := ih hlt
      exact ⟨u, j, hau, by omega, hu⟩
    · obtain ⟨j, hj, hid⟩ := appendsAt_of_stream_ne hsame
      exact ⟨b, j, hle, Nat.lt_succ_self b, hj, hid⟩

/-- The first access of a call. -/
theorem exists_first_access {n : Nat} {k : ι} (h : schedule[n]? = some k) :
    ∃ s ≤ n, schedule[s]? = some k ∧ k ∉ schedule.take s := by
  -- every earlier access is nearer to the first one
  induction n using Nat.strong_induction_on with
  | _ n ih =>
    by_cases hbefore : k ∈ schedule.take n
    · obtain ⟨i, hi⟩ := List.mem_iff_getElem?.1 hbefore
      rw [List.getElem?_take] at hi
      split at hi
      · next hlt =>
        obtain ⟨s, hs, hfirst⟩ := ih i hlt hi
        exact ⟨s, by omega, hfirst⟩
      · cases hi
    · exact ⟨n, le_rfl, h, hbefore⟩

/-- A call that saves has made an access before, and expects a stream that is at least as long as it
was then. -/
theorem exists_first_access_of_save {n : Nat} {k : ι} {root : Root aggregate} {correlation : Uuid}
    {stamp : Nat → Stamp} {next : Except aggregate.Fault Nat × Root aggregate →
      Program aggregate (Except Failure Nat)}
    (h : (after calls schedule n).programs k = .save root correlation stamp next) :
    ∃ s < n, schedule[s]? = some k ∧ k ∉ schedule.take s ∧
      ((after calls schedule s).store.stream (calls k).id.identity).length ≤ root.committed := by
  induction n with
  | zero =>
    have hstart : (after calls schedule 0).programs k = (calls k).handle Program.access := rfl
    rw [hstart, Call.handle_eq] at h
    split at h <;> cases h
  | succ n ih =>
    have hold : (after calls schedule n).programs k = .save root correlation stamp next →
        ∃ s < n + 1, schedule[s]? = some k ∧ k ∉ schedule.take s ∧
          ((after calls schedule s).store.stream (calls k).id.identity).length
            ≤ root.committed := by
      intro hsave
      obtain ⟨s, hlt, hs⟩ := ih hsave
      exact ⟨s, by omega, hs⟩
    cases haccess : schedule[n]? with
    | none =>
      rw [after_succ_of_none haccess] at h
      exact hold h
    | some j =>
      rw [after_succ haccess] at h
      by_cases hj : k = j
      · -- the call itself has just opened its order
        subst hj
        rw [programs_step_self] at h
        obtain ⟨s, hle, hs, hfirst⟩ := exists_first_access haccess
        refine ⟨s, by omega, hs, hfirst, ?_⟩
        rw [((sound_after n).phase k).committed_of_step h]
        exact (stream_prefix_after hle (calls k).id).length_le
      · rw [programs_step_of_ne _ hj] at h
        exact hold h

/-- Between the first access that a call makes and one in which it saves, another call appends to the
stream of the same order. -/
def Overtaken (calls : ι → Call) (schedule : List ι) (k j : ι) : Prop :=
  ∃ s u t, s < u ∧ u < t ∧ schedule[s]? = some k ∧ k ∉ schedule.take s ∧ schedule[t]? = some k ∧
    (∃ root correlation stamp next,
      (after calls schedule t).programs k = .save root correlation stamp next) ∧
    (calls j).id = (calls k).id ∧ AppendsAt calls schedule u j

/-- A call that meets a conflict was overtaken by another call. -/
theorem overtaken_of_conflict {k : ι} {text : String} {expected actual : Nat}
    (h : (run calls schedule).result k
      = some (.error (.kernel (.conflict text expected actual)))) :
    ∃ j, j ≠ k ∧ Overtaken calls schedule k j := by
  rw [← after_length] at h
  obtain ⟨t, -, ht, hpending, hconflict⟩ := exists_access_of_result h
  have hsound : Sound calls (after calls schedule t) := sound_after t
  obtain ⟨events, hrecords⟩ := hsound.records (calls k).id
  rw [after_succ ht, result, programs_step_self] at hconflict
  obtain ⟨root, correlation, stamp, next, hsave, hstale⟩ :=
    (hsound.phase k).stale_of_conflict hrecords hpending hconflict
  obtain ⟨s, hst, hs, hfirst, hlength⟩ := exists_first_access_of_save hsave
  obtain ⟨u, j, hsu, hut, hu, hid⟩ := exists_appendsAt (Nat.le_of_lt hst)
    (lt_of_le_of_lt hlength hstale)
  -- an append ends the call that makes it, and this call is still pending
  have hne : j ≠ k := by
    rintro rfl
    obtain ⟨version, hversion⟩ := hu.succeeds
    have hdone := result_after hut hversion
    rw [hpending] at hdone
    cases hdone
  have hsu' : s ≠ u := by
    rintro rfl
    have haccess := hu.access
    rw [hs] at haccess
    exact hne (Option.some.inj haccess).symm
  exact ⟨j, hne, s, u, t, by omega, hut, hs, hfirst, ht,
    ⟨root, correlation, stamp, next, hsave⟩, hid, hu⟩

end Pool

end Order

end EventSourcing
