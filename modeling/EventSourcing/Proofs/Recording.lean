import EventSourcing.Proofs.Replay

/-!
# Recording and replaying

Events reach a root in two ways that are written apart. A replay takes them from the history and
counts them as committed; recording takes them as new and buffers them. Both come to the same state
and the same version, and where an event cannot follow, both fail there with the same error.

* `Aggregate.Breaks` says where a row of events can go no further, apart from any root.
* `Root.ReplayFailsAt` and `FailsFirstAt` are the places where a replay and a row of recordings
  fail; `Root.replayFailsAt_iff` and `Root.failsFirstAt_recordEach` tie both to `Aggregate.Breaks`.
* `Root.recording_agrees` compares the two at every split of a history.
-/

namespace EventSourcing

/-! ## Where events can go no further -/

/-- After some events the next one cannot follow: they were all accepted, and it is refused. -/
structure Aggregate.Breaks (A : Aggregate) (state : A.State) (before : List A.Event)
    (event : A.Event) (e : A.Error) : Prop where
  accepts : A.Accepts state before
  refuses : (A.apply event (A.fold state before)).1 = .error e

namespace Aggregate

variable {A : Aggregate} {state : A.State} {event : A.Event} {e : A.Error}

/-- What breaks behind a history breaks in the state that the history leads to. -/
theorem breaks_append {xs before : List A.Event} :
    A.Breaks state (xs ++ before) event e ↔
      A.Accepts state xs ∧ A.Breaks (A.fold state xs) before event e := by
  constructor
  · rintro ⟨haccepts, hrefuses⟩
    obtain ⟨hxs, hbefore⟩ := accepts_append.1 haccepts
    rw [fold_append] at hrefuses
    exact ⟨hxs, hbefore, hrefuses⟩
  · rintro ⟨hxs, hbefore, hrefuses⟩
    exact ⟨accepts_append.2 ⟨hxs, hbefore⟩, by rw [fold_append]; exact hrefuses⟩

end Aggregate

/-- Of the answers in a row the first that is an error stands at a place. -/
def FailsFirstAt {ε : Type} (answers : List (Except ε Unit)) (i : Nat) (e : ε) : Prop :=
  (∀ j < i, answers[j]? = some (.ok ())) ∧ answers[i]? = some (.error e)

namespace Root

variable {A : Aggregate} {event : A.Event} {e : A.Error}

/-! ## Replays that fail -/

/-- A replay that comes to an event that cannot follow fails with its error. -/
theorem advanceAll_of_breaks (root : Root A) {before : List A.Event}
    (h : A.Breaks root.state before event e) (rest : List A.Event) :
    root.advanceAll (before ++ event :: rest) = .error e := by
  induction before generalizing root with
  | nil =>
    rw [List.nil_append, advanceAll, advance_of_error h.refuses]
  | cons first before ih =>
    obtain ⟨⟨hfirst, haccepts⟩, hrefuses⟩ := h
    rw [List.cons_append, advanceAll, advance_of_ok hfirst]
    exact ih _ ⟨haccepts, hrefuses⟩

/-- A replay fails only at an event that cannot follow. -/
theorem exists_breaks_of_advanceAll (root : Root A) {events : List A.Event}
    (h : root.advanceAll events = .error e) :
    ∃ before event rest, events = before ++ event :: rest ∧ A.Breaks root.state before event e := by
  induction events generalizing root with
  | nil => cases h
  | cons first events ih =>
    rw [advanceAll] at h
    cases happly : (A.apply first root.state).1 with
    | error e' =>
      rw [advance_of_error happly] at h
      cases h
      exact ⟨[], first, events, rfl, trivial, happly⟩
    | ok u =>
      rw [advance_of_ok happly] at h
      obtain ⟨before, event, rest, rfl, haccepts, hrefuses⟩ := ih _ h
      exact ⟨first :: before, event, rest, rfl, ⟨happly, haccepts⟩, hrefuses⟩

/-- The replay of a history fails with an error at a place: the events before it can be replayed,
and with the one that stands there they cannot. -/
def ReplayFailsAt (id : A.Id) (history : List A.Event) (i : Nat) (e : A.Error) : Prop :=
  i < history.length ∧ (∃ root, replay id (history.take i) = .ok root) ∧
    replay id (history.take (i + 1)) = .error e

/-- A replay fails at the event that cannot follow on the ones before it. -/
theorem replayFailsAt_iff {id : A.Id} {history : List A.Event} {i : Nat} :
    ReplayFailsAt id history i e ↔
      ∃ event rest, history = history.take i ++ event :: rest ∧
        A.Breaks A.initial (history.take i) event e := by
  constructor
  · rintro ⟨hi, ⟨root, hbefore⟩, hfails⟩
    have haccepts := (replay_eq_ok_iff.1 hbefore).1
    rw [List.take_succ_eq_append_getElem hi] at hfails
    refine ⟨history[i], history.drop (i + 1), ?_, haccepts, ?_⟩
    · rw [← List.drop_eq_getElem_cons hi, List.take_append_drop]
    · cases happly : (A.apply history[i] (A.fold A.initial (history.take i))).1 with
      | ok u =>
        -- an event that can follow would have been replayed
        rw [replay_of_accepts id (Aggregate.accepts_concat.2 ⟨haccepts, happly⟩)] at hfails
        cases hfails
      | error e' =>
        rw [replay, advanceAll_of_breaks (new id) ⟨haccepts, happly⟩ []] at hfails
        rw [Except.error.inj hfails]
  · rintro ⟨event, rest, hsplit, hbreaks⟩
    have hlength := congrArg List.length hsplit
    rw [List.length_append, List.length_take, List.length_cons] at hlength
    have hi : i < history.length := by omega
    have hevent : history[i] = event := by
      have hdrop := List.append_cancel_left ((List.take_append_drop i history).trans hsplit)
      rw [List.drop_eq_getElem_cons hi] at hdrop
      exact List.head_eq_of_cons_eq hdrop
    refine ⟨hi, ⟨_, replay_of_accepts id hbreaks.accepts⟩, ?_⟩
    rw [List.take_succ_eq_append_getElem hi, hevent]
    exact advanceAll_of_breaks (new id) hbreaks []

/-- A replay fails at one place only, and with one error. -/
theorem ReplayFailsAt.unique {id : A.Id} {history : List A.Event} {i j : Nat} {e' : A.Error}
    (hi : ReplayFailsAt id history i e) (hj : ReplayFailsAt id history j e') :
    i = j ∧ e = e' := by
  -- what can be replayed up to one place can be replayed up to every place before it
  have hle {i j : Nat} {e e' : A.Error} (hi : ReplayFailsAt id history i e)
      (hj : ReplayFailsAt id history j e') : j ≤ i := by
    refine Nat.not_lt.1 fun hlt => ?_
    obtain ⟨root, hroot⟩ := hj.2.1
    have haccepts := (replay_eq_ok_iff.1 hroot).1
    rw [← List.take_append_drop (i + 1) (history.take j), List.take_take,
      Nat.min_eq_left hlt] at haccepts
    have hreplay := replay_of_accepts id (Aggregate.accepts_append.1 haccepts).1
    rw [hi.2.2] at hreplay
    cases hreplay
  obtain rfl := Nat.le_antisymm (hle hj hi) (hle hi hj)
  exact ⟨rfl, Except.error.inj (hi.2.2.symm.trans hj.2.2)⟩

theorem exists_replayFailsAt {id : A.Id} {history : List A.Event}
    (h : replay id history = .error e) : ∃ i, ReplayFailsAt id history i e := by
  obtain ⟨before, event, rest, rfl, hbreaks⟩ := exists_breaks_of_advanceAll (new id) h
  refine ⟨before.length, replayFailsAt_iff.2 ⟨event, rest, ?_, ?_⟩⟩
  · rw [List.take_left]
  · rw [List.take_left]
    exact hbreaks

/-! ## Rows of recordings -/

/-- Records events one by one, whatever comes of each, and gives all the answers. -/
def recordEach (root : Root A) : List A.Event → List (Except A.Error Unit) × Root A
  | [] => ([], root)
  | event :: rest =>
    let (answer, recorded) := root.record event
    let (answers, last) := recorded.recordEach rest
    (answer :: answers, last)

theorem recordEach_cons (root : Root A) (event : A.Event) (rest : List A.Event) :
    root.recordEach (event :: rest) =
      ((root.record event).1 :: ((root.record event).2.recordEach rest).1,
        ((root.record event).2.recordEach rest).2) := rfl

/-- Events that can follow one another are all recorded. They go to the end of the buffer and count
as versions, but nothing of them as committed. -/
theorem recordEach_of_accepts (root : Root A) {events : List A.Event}
    (h : A.Accepts root.state events) :
    root.recordEach events = (List.replicate events.length (.ok ()), { root with
      state := A.fold root.state events, uncommitted := root.uncommitted ++ events,
      version := root.version + events.length }) := by
  induction events generalizing root with
  | nil => rw [List.append_nil]; rfl
  | cons event rest ih =>
    have hrest := ih (root.record event).2 (by rw [record_of_ok h.1]; exact h.2)
    rw [recordEach_cons, hrest, record_of_ok h.1]
    simp only [List.length_cons, List.replicate_succ, Aggregate.fold_cons, List.append_assoc,
      List.singleton_append, Nat.add_assoc, Nat.add_comm 1]

theorem recordEach_append (root : Root A) (xs ys : List A.Event) :
    root.recordEach (xs ++ ys) =
      ((root.recordEach xs).1 ++ ((root.recordEach xs).2.recordEach ys).1,
        ((root.recordEach xs).2.recordEach ys).2) := by
  induction xs generalizing root with
  | nil => rfl
  | cons event rest ih =>
    rw [List.cons_append, recordEach_cons, recordEach_cons, ih]
    rfl

/-- The first recording that fails is that of the event that cannot follow. -/
theorem failsFirstAt_recordEach (root : Root A) {before : List A.Event}
    (h : A.Breaks root.state before event e) (rest : List A.Event) :
    FailsFirstAt (root.recordEach (before ++ event :: rest)).1 before.length e := by
  rw [recordEach_append, recordEach_of_accepts root h.accepts]
  constructor
  · intro j hj
    have hlength : j < (List.replicate before.length (Except.ok () : Except A.Error Unit)).length :=
      by rwa [List.length_replicate]
    rw [List.getElem?_append_left hlength, List.getElem?_replicate, if_pos hj]
  · rw [List.getElem?_append_right (Nat.le_of_eq List.length_replicate), List.length_replicate,
      Nat.sub_self, recordEach_cons, record_of_error h.refuses]
    rfl

/-! ## Both at every split -/

/-- Recording and replaying agree, wherever a history is split.

* If the whole history can be replayed, the first part can, and all events of the second part can be
  recorded on it. That leads to the same state and version, with the first part committed and the
  second one buffered.
* If it cannot, there is one place where the replay fails. Recording all events on a new root first
  fails at the same place with the same error; if the place lies in the second part, so does
  recording that part on the replay of the first. -/
theorem recording_agrees (id : A.Id) (xs ys : List A.Event) :
    (∀ root, replay id (xs ++ ys) = .ok root →
      ∃ base last, replay id xs = .ok base ∧
        base.recordEach ys = (List.replicate ys.length (.ok ()), last) ∧
        last.id = root.id ∧ last.state = root.state ∧ last.version = root.version ∧
        last.committed = xs.length ∧ last.uncommitted = ys ∧ last.corrupted = false) ∧
    (∀ e, replay id (xs ++ ys) = .error e → ∃ i, ReplayFailsAt id (xs ++ ys) i e) ∧
    ∀ i e, ReplayFailsAt id (xs ++ ys) i e →
      (∀ j e', ReplayFailsAt id (xs ++ ys) j e' → j = i ∧ e' = e) ∧
      replay id (xs ++ ys) = .error e ∧
      FailsFirstAt ((new id : Root A).recordEach (xs ++ ys)).1 i e ∧
      (xs.length ≤ i → ∃ base, replay id xs = .ok base ∧
        FailsFirstAt (base.recordEach ys).1 (i - xs.length) e) := by
  refine ⟨fun root h => ?_, fun e h => exists_replayFailsAt h, fun i e h => ?_⟩
  · obtain ⟨haccepts, rfl⟩ := replay_eq_ok_iff.1 h
    obtain ⟨hxs, hys⟩ := Aggregate.accepts_append.1 haccepts
    refine ⟨_, _, replay_of_accepts id hxs, recordEach_of_accepts _ hys, rfl, ?_, ?_, rfl, rfl, rfl⟩
    · exact (Aggregate.fold_append A.initial xs ys).symm
    · exact List.length_append.symm
  · obtain ⟨event, rest, hsplit, hbreaks⟩ := replayFailsAt_iff.1 h
    have hlength : ((xs ++ ys).take i).length = i := by
      rw [List.length_take, Nat.min_eq_left (Nat.le_of_lt h.1)]
    refine ⟨fun j e' hj => hj.unique h, ?_, ?_, fun hi => ?_⟩
    · rw [hsplit]
      exact advanceAll_of_breaks (new id) hbreaks rest
    · have hfails := failsFirstAt_recordEach (new id) hbreaks rest
      rwa [← hsplit, hlength] at hfails
    · -- the events before the place are the first part and some of the second
      have htake : (xs ++ ys).take i = xs ++ ys.take (i - xs.length) := by
        rw [List.take_append, List.take_of_length_le hi]
      rw [htake, List.append_assoc] at hsplit
      rw [htake] at hbreaks
      obtain ⟨hxs, hys⟩ := Aggregate.breaks_append.1 hbreaks
      have hrest := List.append_cancel_left hsplit
      have hplace : (ys.take (i - xs.length)).length = i - xs.length := by
        have hlt := h.1
        rw [List.length_append] at hlt
        rw [List.length_take]
        omega
      have hfails := failsFirstAt_recordEach (ofHistory id xs) hys rest
      rw [← hrest, hplace] at hfails
      exact ⟨_, replay_of_accepts id hxs, hfails⟩

end Root

end EventSourcing
