import EventSourcing.Proofs.OrderCodec
import EventSourcing.Proofs.Session

/-!
# Loading what a session saved

The live state of a root comes from recording events, and the loaded one from reading their texts
back. For an aggregate with a faithful codec both are the fold of the saved events:

* `Root.Replayed` is the invariant of one root: its state is the fold of the events that its base
  carries and of its own recorded ones. It needs nothing of other roots.
* `Session.Recorded` is the invariant of the streams: each carries the events that were saved under
  its identity, and each of these can follow on the ones before it.
* `Session.load_after_run` is what follows for loads. An aggregate is read with its own codec, so no
  other aggregate may have saved under its kind of identity (`Session.Sole`).
-/

namespace EventSourcing

/-! ## The state of a root -/

/-- The state of a sound root is the fold of the events that its base carries and of the recorded
ones, and each of them can follow. -/
def Root.Replayed {A : Aggregate} (root : Root A) (base : List Stored) : Prop :=
  root.corrupted = false → ∃ events, List.Forall₂ (Envelope.Carries A.schema) base events ∧
    A.Accepts A.initial (events ++ root.uncommitted) ∧
    root.state = A.fold A.initial (events ++ root.uncommitted)

namespace Root

variable {A : Aggregate} {root : Root A} {base : List Stored}

theorem replayed_ofHistory {id : A.Id} {events : List A.Event} (h : A.Records base events) :
    (ofHistory id events).Replayed base := by
  intro _
  refine ⟨events, h.carries, ?_, ?_⟩
  · show A.Accepts A.initial (events ++ [])
    rw [List.append_nil]
    exact h.accepts
  · show A.fold A.initial events = A.fold A.initial (events ++ [])
    rw [List.append_nil]

theorem Replayed.record (h : root.Replayed base) (event : A.Event) :
    (root.record event).2.Replayed base := by
  cases happly : (A.apply event root.state).1 with
  | error e =>
    rw [record_of_error happly]
    intro hcorrupted
    cases hcorrupted
  | ok u =>
    rw [record_of_ok happly]
    intro hcorrupted
    obtain ⟨events, hcarries, haccepts, hstate⟩ := h hcorrupted
    rw [hstate] at happly
    refine ⟨events, hcarries, ?_, ?_⟩
    · show A.Accepts A.initial (events ++ (root.uncommitted ++ [event]))
      rw [← List.append_assoc, Aggregate.accepts_concat]
      exact ⟨haccepts, happly⟩
    · show (A.apply event root.state).2 = A.fold A.initial (events ++ (root.uncommitted ++ [event]))
      rw [← List.append_assoc, Aggregate.fold_concat, hstate]

theorem Replayed.execute (h : root.Replayed base) (now : Timestamp) (command : A.Command) :
    (root.execute now command).2.Replayed base :=
  execute_preserves (P := fun root => root.Replayed base) (fun _ event hroot => hroot.record event)
    h now command

/-- Saved events go from the buffer to the base. -/
theorem Replayed.drain (h : root.Replayed base) {encoded : List Stored}
    (hencoded : List.Forall₂ (Envelope.Carries A.schema) encoded root.uncommitted) :
    root.drain.2.Replayed (base ++ encoded) := by
  intro hcorrupted
  obtain ⟨events, hcarries, haccepts, hstate⟩ := h hcorrupted
  refine ⟨events ++ root.uncommitted, List.rel_append hcarries hencoded, ?_, ?_⟩
  · show A.Accepts A.initial (events ++ root.uncommitted ++ [])
    rw [List.append_nil]
    exact haccepts
  · show root.state = A.fold A.initial (events ++ root.uncommitted ++ [])
    rw [List.append_nil]
    exact hstate

end Root

namespace Session

/-- The state of every root with a faithful codec comes from its base and its buffer. -/
def Replayed (s : Session) : Prop :=
  ∀ w ∈ s.writers, w.aggregate.schema.Faithful → w.root.Replayed w.base

theorem Replayed.get {s : Session} (h : s.Replayed) {k : Nat} {w : Writer}
    (hk : s.writers[k]? = some w) (hschema : w.aggregate.schema.Faithful) :
    w.root.Replayed w.base :=
  h w (List.mem_of_getElem? hk) hschema

theorem Replayed.join {s : Session} (h : s.Replayed) {w : Writer}
    (hw : w.aggregate.schema.Faithful → w.root.Replayed w.base) : (s.join w).Replayed := by
  intro v hv
  rcases List.mem_append.1 hv with hv | hv
  · exact h v hv
  · rw [List.mem_singleton.1 hv]
    exact hw

theorem Replayed.set {s : Session} (h : s.Replayed) {k : Nat} {w : Writer}
    (hw : w.aggregate.schema.Faithful → w.root.Replayed w.base) {store : Store}
    {log : List Entry} : Replayed ⟨store, s.writers.set k w, log⟩ := by
  intro v hv
  rcases List.mem_or_eq_of_mem_set hv with hv | rfl
  · exact h v hv
  · exact hw

/-- A writer that appends builds on the whole stream. -/
theorem base_eq_of_current {s : Session} (hs : s.Sound) {k : Nat} {w : Writer}
    (hk : s.writers[k]? = some w) (hversion : w.root.committed = (s.store.stream w.identity).length) :
    w.base = s.store.stream w.identity := by
  by_contra hne
  exact (hs.get hk).outdated_iff.1 (Ne.symm hne) hversion

/-- One step keeps the state of every root. -/
theorem replayed_of_step {s t : Session} (hs : s.Sound) (h : s.Replayed) (hstep : Step s t) :
    t.Replayed := by
  cases hstep with
  | new id => exact h.join fun _ => Root.replayed_ofHistory Aggregate.records_nil
  | load hload =>
    obtain ⟨-, events, hrecords, rfl⟩ := Store.load_eq_ok_iff.1 hload
    exact h.join fun _ => Root.replayed_ofHistory hrecords
  | @record k w hk event =>
    exact h.set (w := w.withRoot (w.root.record event).2) fun hschema =>
      (h.get hk hschema).record event
  | @execute k w hk now command =>
    exact h.set (w := w.withRoot (w.root.execute now command).2) fun hschema =>
      (h.get hk hschema).execute now command
  | @save k w hk correlation stamp =>
    rcases save_cases hk correlation stamp with
      ⟨hsave, -⟩ | ⟨envelopes, -, -, hversion, hencode, hsave⟩
    · rw [hsave]
      exact h
    · rw [hsave, ← base_eq_of_current hs hk hversion]
      exact h.set (w := ⟨w.aggregate, w.root.drain.2, w.base ++ envelopes⟩) fun hschema =>
        (h.get hk hschema).drain (Store.carries_of_encodeFrom hschema hencode)

theorem replayed_of_reachable {s : Session} (h : Reachable s) : s.Replayed := by
  induction h with
  | refl => exact fun _ hw => absurd hw List.not_mem_nil
  | tail hrun hstep ih => exact replayed_of_step (sound_of_reachable hrun) ih hstep

/-! ## The events of a stream -/

/-- What was saved under an identity, in order. -/
def saved (s : Session) (i : Identity) : List Entry :=
  s.log.filter fun entry => entry.identity = i

/-- No other aggregate has saved under the aggregate's kind of identity. -/
def Sole (A : Aggregate) (s : Session) : Prop :=
  ∀ entry ∈ s.log, entry.identity.kind = A.idKind.tag → entry.aggregate = A

/-- Every stream of an aggregate records the events that were saved under its identity. -/
def Recorded (A : Aggregate) (s : Session) : Prop :=
  ∀ id : A.Id, ∃ events, s.saved id.identity = events.map (Entry.mk A id.identity) ∧
    A.Records (s.store.stream id.identity) events

/-- What is saved stays saved. -/
theorem log_prefix_of_step {s t : Session} (h : Step s t) : s.log <+: t.log := by
  cases h with
  | save hk correlation stamp =>
    rcases save_cases hk correlation stamp with ⟨hsave, -⟩ | ⟨_, -, -, -, -, hsave⟩
    · exact ⟨[], by rw [hsave, List.append_nil]⟩
    · exact ⟨_, by rw [hsave]⟩
  | _ => exact List.prefix_rfl

theorem Sole.of_step {A : Aggregate} {s t : Session} (h : Sole A t) (hstep : Step s t) :
    Sole A s :=
  fun entry hentry => h entry ((log_prefix_of_step hstep).subset hentry)

variable {A : Aggregate} {s t : Session}

/-- A save counts for its own identity and for no other. -/
theorem saved_append {i j : Identity} {B : Aggregate} (events : List B.Event) {store : Store}
    {writers : List Writer} :
    saved ⟨store, writers, s.log ++ events.map (Entry.mk B i)⟩ j
      = s.saved j ++ if i = j then events.map (Entry.mk B i) else [] := by
  rw [saved, List.filter_append, List.filter_map]
  by_cases hij : i = j
  · have hall : events.filter ((fun entry => decide (entry.identity = j)) ∘ Entry.mk B i) = events :=
      List.filter_eq_self.2 fun _ _ => decide_eq_true hij
    rw [if_pos hij, hall]
    rfl
  · have hnone : events.filter ((fun entry => decide (entry.identity = j)) ∘ Entry.mk B i) = [] :=
      List.filter_eq_nil_iff.2 fun _ _ => by simpa using hij
    rw [if_neg hij, hnone]
    rfl

/-- An append by a root of the aggregate keeps its streams recorded. -/
theorem Recorded.append (hA : A.schema.Faithful) (h : Recorded A s) {root : Root A}
    (hroot : root.Replayed (s.store.stream root.identity)) (hcorrupted : root.corrupted = false)
    {correlation : Uuid} {stamp : Nat → Stamp} {version : Nat} {encoded : List Stored}
    (hencode : Store.encodeFrom root.id correlation stamp version root.uncommitted = .ok encoded)
    {writers : List Writer} :
    Recorded A ⟨s.store.append root.identity encoded, writers,
      s.log ++ root.uncommitted.map (Entry.mk A root.identity)⟩ := by
  intro id
  obtain ⟨events, hsaved, hrecords⟩ := h id
  by_cases hid : root.identity = id.identity
  · obtain ⟨history, hhistory, hfollows, -⟩ := hroot hcorrupted
    -- the live history and the saved one are both what the stream carries
    rw [hid] at hhistory
    rw [Envelope.forall₂_carries_unique hhistory hrecords.carries] at hfollows
    refine ⟨events ++ root.uncommitted, ?_, ?_⟩
    · rw [saved_append, if_pos hid, hsaved, hid, List.map_append]
    · show A.Records ((s.store.append root.identity encoded).stream id.identity) _
      rw [← hid, Store.stream_append_self, hid]
      exact hrecords.append (Store.carries_of_encodeFrom hA hencode) hfollows
  · refine ⟨events, ?_, ?_⟩
    · rw [saved_append, if_neg hid, hsaved, List.append_nil]
    · show A.Records ((s.store.append root.identity encoded).stream id.identity) _
      rw [Store.stream_append_of_ne _ (Ne.symm hid)]
      exact hrecords

/-- One step keeps the streams of an aggregate recorded, if no other saves under its kind. -/
theorem recorded_of_step (hA : A.schema.Faithful) (hs : s.Sound) (hr : s.Replayed)
    (h : Recorded A s) (hstep : Step s t) (hsole : Sole A t) : Recorded A t := by
  cases hstep with
  | @save k w hk correlation stamp =>
    rcases save_cases hk correlation stamp with
      ⟨hsave, -⟩ | ⟨encoded, hcorrupted, hbuffer, hversion, hencode, hsave⟩
    · rw [hsave]
      exact h
    · have hroot := fun hw => hr.get hk hw
      rw [base_eq_of_current hs hk hversion] at hroot
      rw [hsave] at hsole ⊢
      by_cases hkind : w.identity.kind = A.idKind.tag
      · -- a saved event of this kind is in the log, so the root is one of the aggregate
        obtain ⟨event, hevent⟩ := List.exists_mem_of_ne_nil _ hbuffer
        have haggregate : w.aggregate = A := hsole ⟨w.aggregate, w.identity, event⟩
          (List.mem_append_right _ (List.mem_map_of_mem hevent)) hkind
        obtain ⟨B, root, base⟩ := w
        cases haggregate
        exact h.append hA (hroot hA) hcorrupted hencode
      · -- a save under another kind touches no stream of the aggregate
        intro id
        have hne : w.identity ≠ id.identity := fun heq => hkind (congrArg Identity.kind heq)
        obtain ⟨events, hsaved, hrecords⟩ := h id
        refine ⟨events, ?_, ?_⟩
        · rw [saved_append, if_neg hne, hsaved, List.append_nil]
        · show A.Records ((s.store.append w.identity encoded).stream id.identity) _
          rw [Store.stream_append_of_ne _ (Ne.symm hne)]
          exact hrecords
  | _ => exact h

theorem recorded_of_reachable (hA : A.schema.Faithful) (h : Reachable s) (hsole : Sole A s) :
    Recorded A s := by
  induction h with
  | refl => exact fun _ => ⟨[], rfl, Aggregate.records_nil⟩
  | tail hrun hstep ih =>
    exact recorded_of_step hA (sound_of_reachable hrun) (replayed_of_reachable hrun)
      (ih (hsole.of_step hstep)) hstep hsole

/-- Loads are faithful, for orders as for every aggregate with a faithful codec that alone saves
under its kind of identity. Whatever the roots of a session have done, every stored stream loads,
as the fold of all events that were saved under its identity; and right after a root was saved, a
load gives its state and its version. -/
theorem load_after_run :
    Order.aggregate.schema.Faithful ∧
    ∀ {A : Aggregate}, A.schema.Faithful → ∀ {s : Session}, Reachable s → Sole A s →
      (∀ id : A.Id, s.store.stream id.identity ≠ [] → ∃ events root,
        s.saved id.identity = events.map (Entry.mk A id.identity) ∧
        s.store.load A id = .ok root ∧ root.id = id ∧
        root.state = A.fold A.initial events ∧ root.version = events.length ∧
        root.committed = events.length ∧ root.uncommitted = [] ∧ root.corrupted = false) ∧
      ∀ (k : Nat) (root : Root A) (base : List Stored), s.writers[k]? = some ⟨A, root, base⟩ →
        root.uncommitted ≠ [] → ∀ correlation stamp version,
          (s.store.save root correlation stamp).result = .ok version → ∃ loaded,
            (s.store.save root correlation stamp).store.load A root.id = .ok loaded ∧
            loaded.state = (s.store.save root correlation stamp).root.state ∧
            loaded.version = (s.store.save root correlation stamp).root.version := by
  refine ⟨Order.schema_faithful, fun {A} hA {s} hs hsole => ⟨?_, ?_⟩⟩
  · intro id hstream
    obtain ⟨events, hsaved, hrecords⟩ := recorded_of_reachable hA hs hsole id
    exact ⟨events, Root.ofHistory id events, hsaved, Store.load_of_records hstream hrecords, rfl,
      rfl, rfl, rfl, rfl, rfl⟩
  · intro k root base hk hbuffer correlation stamp version hok
    have hsound := sound_of_reachable hs
    rcases Store.save_cases s.store root correlation stamp with
      ⟨-, -, hempty⟩ | ⟨encoded, hcorrupted, -, hversion, hencode, hsave⟩
    · exact absurd (hempty version hok) hbuffer
    · -- the save appended, so the root was built on the whole stream
      have hroot : root.Replayed (s.store.stream root.identity) := by
        have hbase : base = s.store.stream root.identity := base_eq_of_current hsound hk hversion
        rw [← hbase]
        exact (replayed_of_reachable hs).get hk hA
      obtain ⟨events, hcarries, haccepts, hstate⟩ := hroot hcorrupted
      have hcounted : root.version = root.committed + root.uncommitted.length :=
        (hsound.get hk).counted hcorrupted
      rw [hsave]
      refine ⟨Root.ofHistory root.id (events ++ root.uncommitted),
        Store.load_of_records ?_ ⟨?_, haccepts⟩, hstate.symm, ?_⟩
      · show (s.store.append root.identity encoded).stream root.identity ≠ []
        rw [Store.stream_append_self]
        exact List.append_ne_nil_of_right_ne_nil _
          (List.length_pos_iff.1 (Store.length_pos_of_encodeFrom hencode hbuffer))
      · show List.Forall₂ _ ((s.store.append root.identity encoded).stream root.identity) _
        rw [Store.stream_append_self]
        exact List.rel_append hcarries (Store.carries_of_encodeFrom hA hencode)
      · show (events ++ root.uncommitted).length = root.version
        rw [List.length_append, ← hcarries.length_eq, ← Store.currentVersion_eq, ← hversion,
          ← hcounted]

/-- The order that is saved first is loaded as its root left it: created, at version one. -/
theorem load_after_run_contested :
    contested.writers[0]? = some ⟨Order.aggregate, contender, []⟩ ∧ ∀ correlation stamp,
      (∃ loaded, (contested.store.save contender correlation stamp).store.load Order.aggregate
          ⟨Uuid.nil⟩ = .ok loaded ∧
        loaded.state = contender.state ∧ loaded.version = 1) ∧
      ∃ loaded, (contested.save 0 ⟨Order.aggregate, contender, []⟩ correlation stamp).store.load
          Order.aggregate ⟨Uuid.nil⟩ = .ok loaded ∧
        loaded.state.status = .created ∧ loaded.committed = 1 := by
  refine ⟨rfl, fun correlation stamp => ⟨?_, ?_⟩⟩
  · have hnone : Sole Order.aggregate contested := fun _ h => absurd h List.not_mem_nil
    exact (load_after_run.2 Order.schema_faithful reachable_contested hnone).2 0 contender [] rfl
      (by decide) correlation stamp 1 rfl
  · have hreach := reachable_contested.tail (.save (k := 0) rfl correlation stamp)
    have hsole : Sole Order.aggregate
        (contested.save 0 ⟨Order.aggregate, contender, []⟩ correlation stamp) :=
      fun entry hentry _ => by rw [List.mem_singleton.1 hentry]
    obtain ⟨events, loaded, hsaved, hload, -, hstate, -, hcommitted, -, -⟩ :=
      (load_after_run.2 Order.schema_faithful hreach hsole).1 ⟨Uuid.nil⟩ (fun h => by cases h)
    obtain ⟨event, rfl, hevent⟩ := List.map_eq_singleton_iff.1 hsaved.symm
    cases hevent
    exact ⟨loaded, hload, by rw [hstate]; rfl, hcommitted⟩

end Session

end EventSourcing
