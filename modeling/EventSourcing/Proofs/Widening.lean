import EventSourcing.Proofs.CountedRuns

/-!
# Wider policies

A backoff is wider than another one if it makes the same delays, allows at least as many attempts,
and finds at least the same errors worth another one. A command without rules of its own then goes
the same way under both as default policies, until the narrower one gives it up.

* `Retry.Backoff.Widens` compares two backoffs, `RetryRules.Widens` two sets of rules, and
  `Course.Followed.Outruns` two runs.
* `Dispatcher.outruns_courseFrom` takes the two runs side by side, attempt by attempt.
* `Dispatcher.outruns_of_widens` is about whole runs.
-/

namespace EventSourcing

/-! ## Wider rules -/

/-- A backoff is wider than another one if they differ in the budget and in the set of errors at
most. What is registered for a kind holds of the kinds below it, so the errors that are covered are
compared, and not the sets. -/
structure Retry.Backoff.Widens (wide narrow : Backoff) : Prop where
  same : wide = { narrow with maxAttempts := wide.maxAttempts, retryable := wide.retryable }
  maxAttempts : narrow.maxAttempts ≤ wide.maxAttempts
  covers : ∀ kind, narrow.retryable.covers kind = true → wide.retryable.covers kind = true

/-- A larger set covers more. The converse fails: a kind is covered without being a member if a kind
above it is one. -/
theorem KindSet.covers_of_subset {s t : KindSet}
    (h : ∀ kind, s.contains kind = true → t.contains kind = true) {kind : ErrorKind}
    (hcovers : s.covers kind = true) : t.covers kind = true := by
  obtain ⟨above, hmem, hcontains⟩ := List.any_eq_true.1 hcovers
  exact List.any_eq_true.2 ⟨above, hmem, h above hcontains⟩

/-- A larger budget and a larger set of kinds make a backoff wider. -/
theorem Retry.Backoff.widens_of_subset (b : Backoff) {n : UInt32} {kinds : List ErrorKind}
    (hn : b.maxAttempts ≤ n) (hkinds : ∀ kind, b.retryable.contains kind = true → kind ∈ kinds) :
    ((b.withMaxAttempts n).withRetryable kinds).Widens b where
  same := rfl
  maxAttempts := by
    show b.maxAttempts ≤ if n = 0 then 1 else n
    split
    · next hzero =>
      rw [hzero, UInt32.le_iff_toNat_le] at hn
      exact UInt32.le_iff_toNat_le.2 (Nat.le_succ_of_le hn)
    · exact hn
  covers _ := KindSet.covers_of_subset fun kind hcontains =>
    List.contains_iff_mem.2 (hkinds kind hcontains)

namespace RetryRules

/-- Rules are wider than others if they make the same pauses and go on wherever the others do. -/
structure Widens (wide narrow : RetryRules) : Prop where
  delay : wide.policy.delay = narrow.policy.delay
  draws : wide.policy.draws = narrow.policy.draws
  maxAttempts : narrow.maxAttempts.toNat ≤ wide.maxAttempts.toNat
  shouldRetry : ∀ kind, narrow.shouldRetry kind = true → wide.shouldRetry kind = true

theorem widens_of_backoff {wide narrow : Retry.Backoff} (h : wide.Widens narrow) :
    ({ policy := .backoff wide } : RetryRules).Widens { policy := .backoff narrow } where
  delay := by
    rw [h.same]
    rfl
  draws := by
    rw [h.same]
    rfl
  maxAttempts := UInt32.le_iff_toNat_le.1 h.maxAttempts
  shouldRetry := h.covers

variable {ε α : Type} [Classified ε] {wide narrow : RetryRules} {outcome : Except ε α}

theorem Widens.not_shouldRetry (h : wide.Widens narrow) {kind : ErrorKind}
    (hno : wide.shouldRetry kind = false) : narrow.shouldRetry kind = false := by
  rw [Bool.eq_false_iff]
  intro hretry
  exact absurd ((h.shouldRetry kind hretry).symm.trans hno) (by decide)

/-- What ends a run under wider rules, ends it under the narrower ones. -/
theorem Widens.ends (h : wide.Widens narrow) {n : Nat} (hends : wide.Ends outcome n) :
    narrow.Ends outcome n := by
  cases outcome with
  | ok value => trivial
  | error error =>
    rcases hends with hno | hspent
    · exact Or.inl (h.not_shouldRetry hno)
    · exact Or.inr (Nat.le_trans h.maxAttempts hspent)

end RetryRules

/-! ## Two runs side by side -/

namespace Course.Followed

variable {ε α : Type} [Classified ε]

/-- How a run compares with one under narrower rules, where `worth` tells after which kinds of error
the wider rules make another attempt. -/
structure Outruns (worth : ErrorKind → Bool) (wide narrow : Followed (Completion ε α × Nat)) :
    Prop where
  /-- The attempts and pauses of the narrower run come first. -/
  acts : narrow.acts <+: wide.acts
  /-- A success is final: there is no further attempt or pause, and the result is the same. -/
  success : narrow.result.1.isSuccess = true →
    wide.acts = narrow.acts ∧ wide.result = narrow.result
  /-- If the results differ, the last error of the narrower run is worth another attempt. -/
  differ : wide.result.1 ≠ narrow.result.1 →
    ∃ error, narrow.result.1.toExcept = .error error ∧ worth (Classified.kind error) = true

variable {worth : ErrorKind → Bool} {wide narrow : Followed (Completion ε α × Nat)}

/-- Doing the same thing first changes nothing. -/
theorem Outruns.cons (h : Outruns worth wide narrow) (act : Act) :
    Outruns worth { wide with acts := act :: wide.acts }
      { narrow with acts := act :: narrow.acts } where
  acts := List.cons_prefix_cons.2 ⟨rfl, h.acts⟩
  success hsuccess := ⟨congrArg (act :: ·) (h.success hsuccess).1, (h.success hsuccess).2⟩
  differ := h.differ

/-- What is counted does not matter. -/
theorem Outruns.withMeasured (h : Outruns worth wide narrow) (xs ys : List Measurement) :
    Outruns worth { wide with measured := xs } { narrow with measured := ys } where
  acts := h.acts
  success := h.success
  differ := h.differ

end Course.Followed

namespace Dispatcher

open Course (Followed)

variable {ε α : Type} [Classified ε] {d d' : Dispatcher} {op op' : Operation}

/-- After the last attempt of the narrower run there is its result, and that of the wider run is the
same unless the error is worth another attempt. -/
theorem outruns_after (h : (d'.rulesFor op').Widens (d.rulesFor op)) {attempt : UInt32} (draw : Nat)
    {outcome : Except ε α} (hends : (d.rulesFor op).Ends outcome attempt.toNat)
    (outcomes : Nat → Except ε α) :
    Followed.Outruns (d'.rulesFor op').shouldRetry
      ((d'.after op' attempt draw outcome).follow outcomes)
      ((d.after op attempt draw outcome).follow outcomes) := by
  rw [follow_after_of_ends hends]
  refine ⟨List.nil_prefix, fun hsuccess => ?_, fun hdiffer => ?_⟩
  · cases outcome with
    | ok value =>
      have hends' : (d'.rulesFor op').Ends (.ok value : Except ε α) attempt.toNat := trivial
      rw [follow_after_of_ends hends']
      exact ⟨rfl, rfl⟩
    | error error =>
      simp only [RetryRules.completion] at hsuccess
      split at hsuccess <;> cases hsuccess
  · cases outcome with
    | ok value =>
      have hends' : (d'.rulesFor op').Ends (.ok value : Except ε α) attempt.toNat := trivial
      rw [follow_after_of_ends hends'] at hdiffer
      exact absurd rfl hdiffer
    | error error =>
      refine ⟨error, ?_, ?_⟩
      · simp only [RetryRules.completion]
        split <;> rfl
      · -- an error that neither set of rules goes on after is permanent under both
        by_contra hno
        rw [Bool.not_eq_true] at hno
        have hends' : (d'.rulesFor op').Ends (.error error : Except ε α) attempt.toNat := Or.inl hno
        rw [follow_after_of_ends hends'] at hdiffer
        simp only [RetryRules.completion, hno, h.not_shouldRetry hno] at hdiffer
        exact hdiffer rfl

/-- From any attempt on, a run goes further under wider rules. -/
theorem outruns_courseFrom (h : (d'.rulesFor op').Widens (d.rulesFor op)) (attempt : UInt32)
    (draw : Nat) (outcomes : Nat → Except ε α) :
    Followed.Outruns (d'.rulesFor op').shouldRetry
      ((d'.courseFrom op' attempt draw).follow outcomes)
      ((d.courseFrom op attempt draw).follow outcomes) := by
  fun_induction d.dispatchFrom (Course.around (ε := ε) (α := α)) op Course.ask attempt draw
      generalizing outcomes with
  | case1 attempt draw ih =>
    rw [courseFrom_eq, courseFrom_eq, follow_noted, follow_noted]
    refine (Followed.Outruns.cons ?_ (.attempt attempt)).withMeasured _ _
    by_cases hends : (d.rulesFor op).Ends (outcomes 0) attempt.toNat
    · exact outruns_after h draw hends _
    · obtain ⟨error, herror, hretry, hafter⟩ := after_of_not_ends hends draw
      obtain ⟨-, -, -, hafter'⟩ := after_of_not_ends (mt h.ends hends) draw
      have hleft : attempt.toNat + 1 < (d.rulesFor op).maxAttempts.toNat := by
        rw [herror] at hends
        exact Nat.not_le.1 fun hspent => hends (Or.inr hspent)
      have hdecide := (d.decide_eq op (Classified.kind error) attempt draw).trans
        (RetryRules.decide_of_left hretry hleft)
      -- both pause for the same time, and go on with the next attempt
      rw [hafter, hafter', h.delay, h.draws]
      have hrest := ih error _ _ hdecide fun n => outcomes (n + 1)
      rw [← rulesFor_policy] at hrest
      exact hrest.cons (.pause _)

/-- A command without rules of its own, under two backoffs as default policies, of which one is wider
than the other one. With the same outcomes of the attempts and the same draws of jitter the attempts
and pauses under the narrower one are the first ones under the wider one. If the narrower one ends in
success, both do the same and end alike. And if the results differ, the last error under the narrower
one is worth another attempt under the wider one. -/
theorem outruns_of_widens {wide narrow : Retry.Backoff} (h : wide.Widens narrow) (name : String)
    (metered metered' : Bool) (draw : Nat) (outcomes : Nat → Except ε α) :
    let op : Operation := ⟨name, none⟩
    Followed.Outruns wide.retryable.covers
      (((⟨.backoff wide, metered'⟩ : Dispatcher).course op draw).follow outcomes)
      (((⟨.backoff narrow, metered⟩ : Dispatcher).course op draw).follow outcomes) := by
  intro op
  have hrules : ((⟨.backoff wide, metered'⟩ : Dispatcher).rulesFor op).Widens
      ((⟨.backoff narrow, metered⟩ : Dispatcher).rulesFor op) := RetryRules.widens_of_backoff h
  exact outruns_courseFrom hrules 0 draw outcomes

/-- An operation loses its connection three times. The default backoff gives up after three attempts;
with five attempts, and permanent errors worth another one too, the operation succeeds. -/
theorem outruns_of_widens_flaky :
    let narrow : Retry.Backoff := .default .still
    let wide := (narrow.withMaxAttempts 5).withRetryable [.transient, .permanent]
    let outcomes : Nat → Except ErrorKind Nat := fun n =>
      if n < 3 then .error .connection else .ok 7
    let run (b : Retry.Backoff) :=
      ((⟨.backoff b, false⟩ : Dispatcher).course ⟨"Reindex", none⟩ 0).follow outcomes
    wide.Widens narrow ∧ (run narrow).result.1 = .failed .connection 3 ∧
      (run wide).result.1 = .success 7 4 ∧ (run narrow).acts <+: (run wide).acts ∧
      wide.retryable.covers .connection = true := by
  intro narrow wide outcomes run
  have hwidens : wide.Widens narrow := narrow.widens_of_subset (by decide) fun kind hcontains => by
    have htransient : [ErrorKind.transient].contains kind = true := hcontains
    exact List.mem_cons.2 (Or.inl (by simpa using htransient))
  have hcovers (b : Retry.Backoff) (hb : b.retryable.contains .transient = true) :
      b.retryable.covers .connection = true := by
    refine List.any_eq_true.2 ⟨.transient, ?_, hb⟩
    simp [ErrorKind.lineage, ErrorKind.parent]
  have hlost (n : Nat) (hn : n < 3) : outcomes n = .error .connection := if_pos hn
  have hresult (b : Retry.Backoff) {k : Nat} (hk : k < UInt32.size)
      (hgoes : ∀ i < k, ¬ RetryRules.Ends { policy := .backoff b } (outcomes i) i)
      (hends : RetryRules.Ends { policy := .backoff b } (outcomes k) k) :
      (run b).result.1 = RetryRules.completion { policy := .backoff b } (outcomes k)
        (.ofNat (k + 1)) := by
    have hfollow := follow_courseFrom ⟨.backoff b, false⟩ ⟨"Reindex", none⟩ outcomes 0 (n := 0)
      (r := k) (by omega) (fun i _ hi => hgoes i (by omega)) (by rwa [Nat.zero_add])
    simp only [Nat.zero_add] at hfollow
    exact congrArg (fun f => f.result.1) hfollow
  have hnarrow : (run narrow).result.1 = .failed .connection 3 := by
    have hends : RetryRules.Ends { policy := .backoff narrow } (outcomes 2) 2 := by
      rw [hlost 2 (by decide)]
      exact Or.inr (by decide)
    rw [hresult narrow (by decide) (fun i hi => ?_) hends, hlost 2 (by decide)]
    · exact if_pos (hcovers narrow rfl)
    · rw [hlost i (by omega)]
      exact Dispatch.not_ends_of_left (hcovers narrow rfl) (Nat.add_lt_add_right hi 1)
  have hwide : (run wide).result.1 = .success 7 4 := by
    refine hresult wide (k := 3) (by decide) (fun i hi => ?_) trivial
    rw [hlost i (by omega)]
    exact Dispatch.not_ends_of_left (hcovers wide rfl)
      (show i + 1 < 5 by omega)
  have houtruns := outruns_of_widens hwidens "Reindex" false false 0 outcomes
  obtain ⟨error, herror, hworth⟩ := houtruns.differ (by
    show (run wide).result.1 ≠ (run narrow).result.1
    rw [hwide, hnarrow]
    intro heq
    cases heq)
  refine ⟨hwidens, hnarrow, hwide, houtruns.acts, ?_⟩
  have hlast : (run narrow).result.1.toExcept = .error error := herror
  rw [hnarrow] at hlast
  cases hlast
  exact hworth

end Dispatcher

end EventSourcing
