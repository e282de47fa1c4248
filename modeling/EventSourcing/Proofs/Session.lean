import EventSourcing.Order.Decision
import EventSourcing.Proofs.Streams
import Mathlib.Logic.Relation

/-!
# Sessions

A session is any number of roots over one store: roots are made or loaded, record events, run
commands and are saved, in any order, and only a save drains them. Every root remembers its
*base*, the stream contents it builds on, and the session remembers which events were saved. The
store sees neither: it compares two numbers.

* `Writer.Sound` is the invariant of one root: its base is a prefix of its stream, and its
  committed version is the length of the base. `Session.sound_of_reachable` carries it over every
  run.
* A root whose base is no longer the whole stream is *outdated*, and stays so
  (`Session.outdated_of_run`).
* `Session.no_lost_update` is what follows for saves.
-/

namespace EventSourcing

/-- A root in use, and the stream contents that it builds on. -/
structure Writer where
  aggregate : Aggregate
  root : Root aggregate
  base : List Stored

/-- An event that was saved, and where. -/
structure Entry where
  aggregate : Aggregate
  identity : Identity
  event : aggregate.Event

/-- Roots over one store, and the events saved so far in their order. -/
structure Session where
  store : Store
  writers : List Writer
  log : List Entry

namespace Writer

def identity (w : Writer) : Identity := w.root.identity

/-- The same writer with another root of its kind. -/
def withRoot (w : Writer) (root : Root w.aggregate) : Writer :=
  { w with root := root }

/-- A save of the root that has something to append, made now, would succeed. -/
def Appends (w : Writer) (store : Store) : Prop :=
  w.root.uncommitted ≠ [] ∧
    ∃ correlation stamp version, (store.save w.root correlation stamp).result = .ok version

end Writer

namespace Session

/-- Nothing is stored, and no root is in use. -/
def start : Session := ⟨.empty, [], []⟩

/-- Another root comes into use. -/
def join (s : Session) (w : Writer) : Session :=
  { s with writers := s.writers ++ [w] }

/-- One writer changes. -/
def put (s : Session) (k : Nat) (w : Writer) : Session :=
  { s with writers := s.writers.set k w }

/-- A writer saves its root. After an append its base is the stream as it then is, and the events
are in the log. -/
def save (s : Session) (k : Nat) (w : Writer) (correlation : Uuid) (stamp : Nat → Stamp) :
    Session :=
  let saved := s.store.save w.root correlation stamp
  let appended := saved.result.toBool && w.root.hasUncommitted
  { store := saved.store
    writers := s.writers.set k
      ⟨w.aggregate, saved.root, if appended then saved.store.stream w.identity else w.base⟩
    log := if appended then s.log ++ w.root.uncommitted.map (Entry.mk w.aggregate w.identity)
      else s.log }

/-- One access or one change of a root. -/
inductive Step : Session → Session → Prop
  | new {s : Session} {A : Aggregate} (id : A.Id) : Step s (s.join ⟨A, Root.new id, []⟩)
  | load {s : Session} {A : Aggregate} {id : A.Id} {root : Root A}
      (h : s.store.load A id = .ok root) :
      Step s (s.join ⟨A, root, s.store.stream id.identity⟩)
  | record {s : Session} {k : Nat} {w : Writer} (hk : s.writers[k]? = some w)
      (event : w.aggregate.Event) : Step s (s.put k (w.withRoot (w.root.record event).2))
  | execute {s : Session} {k : Nat} {w : Writer} (hk : s.writers[k]? = some w) (now : Timestamp)
      (command : w.aggregate.Command) :
      Step s (s.put k (w.withRoot (w.root.execute now command).2))
  | save {s : Session} {k : Nat} {w : Writer} (hk : s.writers[k]? = some w) (correlation : Uuid)
      (stamp : Nat → Stamp) : Step s (s.save k w correlation stamp)

/-- Any number of steps. -/
abbrev Run : Session → Session → Prop := Relation.ReflTransGen Step

/-- What a session can become when it starts from nothing. -/
def Reachable (s : Session) : Prop := Run start s

/-! ## What a step does to writers and streams -/

theorem set_eq_self {writers : List Writer} {k : Nat} {w : Writer} (hk : writers[k]? = some w) :
    writers.set k w = writers := by
  obtain ⟨hlt, rfl⟩ := List.getElem?_eq_some_iff.1 hk
  exact List.set_getElem_self hlt

/-- A save changes nothing, or it appends all recorded events of a sound and current root. -/
theorem save_cases {s : Session} {k : Nat} {w : Writer} (hk : s.writers[k]? = some w)
    (correlation : Uuid) (stamp : Nat → Stamp) :
    (s.save k w correlation stamp = s ∧
        ∀ version, (s.store.save w.root correlation stamp).result = .ok version →
          w.root.uncommitted = []) ∨
      ∃ envelopes, w.root.corrupted = false ∧ w.root.uncommitted ≠ [] ∧
        w.root.committed = (s.store.stream w.identity).length ∧
        Store.encodeFrom w.root.id correlation stamp w.root.committed w.root.uncommitted
          = .ok envelopes ∧
        s.save k w correlation stamp =
          { store := s.store.append w.identity envelopes
            writers := s.writers.set k
              ⟨w.aggregate, w.root.drain.2, s.store.stream w.identity ++ envelopes⟩
            log := s.log ++ w.root.uncommitted.map (Entry.mk w.aggregate w.identity) } := by
  rcases Store.save_cases s.store w.root correlation stamp with
    ⟨hstore, hroot, hempty⟩ | ⟨envelopes, hcorrupted, hbuffer, hversion, hencode, hsave⟩
  · refine Or.inl ⟨?_, hempty⟩
    have happended : ((s.store.save w.root correlation stamp).result.toBool
        && w.root.hasUncommitted) = false := by
      cases hresult : (s.store.save w.root correlation stamp).result with
      | error fault => rfl
      | ok version => simp [Root.hasUncommitted, hempty version hresult]
    simp only [save, happended, hstore, hroot]
    exact congrArg (fun ws => Session.mk s.store ws s.log) (set_eq_self hk)
  · refine Or.inr ⟨envelopes, hcorrupted, hbuffer, hversion, hencode, ?_⟩
    have happended : w.root.hasUncommitted = true := by simp [Root.hasUncommitted, hbuffer]
    simp only [save, hsave, happended, Except.toBool, Bool.and_self, if_true]
    rw [show w.root.identity = w.identity from rfl, Store.stream_append_self]

/-- Streams only grow. -/
theorem stream_prefix_of_step {s t : Session} (h : Step s t) (i : Identity) :
    s.store.stream i <+: t.store.stream i := by
  cases h with
  | new id => exact List.prefix_rfl
  | load h => exact List.prefix_rfl
  | record hk event => exact List.prefix_rfl
  | execute hk now command => exact List.prefix_rfl
  | save hk correlation stamp => exact Store.stream_prefix_save _ _ _ _ _

theorem stream_prefix_of_run {s t : Session} (h : Run s t) (i : Identity) :
    s.store.stream i <+: t.store.stream i := by
  induction h with
  | refl => exact List.prefix_rfl
  | tail _ hstep ih => exact ih.trans (stream_prefix_of_step hstep i)

/-- A change of the root of one writer leaves the others as they are, and of the changed one its
place, its kind of root, its identity and its base. -/
theorem writer_of_put {s : Session} {j k : Nat} {v w : Writer} (hj : s.writers[j]? = some v)
    (hk : s.writers[k]? = some w) {root : Root v.aggregate} (hid : root.id = v.root.id) :
    ∃ w', (s.put j (v.withRoot root)).writers[k]? = some w' ∧ w'.aggregate = w.aggregate ∧
      w'.identity = w.identity ∧ w'.base = w.base := by
  have hlt : k < s.writers.length := (List.getElem?_eq_some_iff.1 hk).1
  by_cases hjk : j = k
  · subst hjk
    rw [hk] at hj
    cases hj
    exact ⟨_, List.getElem?_set_self hlt, rfl, congrArg AggregateId.identity hid, rfl⟩
  · exact ⟨w, (List.getElem?_set_ne hjk).trans hk, rfl, rfl, rfl⟩

/-- A writer stays in its place, with its kind of root and its identity. Its base stays too,
unless the step is a save of it that appends. -/
theorem writer_of_step {s t : Session} (h : Step s t) {k : Nat} {w : Writer}
    (hk : s.writers[k]? = some w) :
    ∃ w', t.writers[k]? = some w' ∧ w'.aggregate = w.aggregate ∧ w'.identity = w.identity ∧
      (w'.base = w.base ∨ w.Appends s.store ∧ w'.base = t.store.stream w.identity) := by
  have hlt : k < s.writers.length := (List.getElem?_eq_some_iff.1 hk).1
  cases h with
  | new id =>
    exact ⟨w, by rw [join, List.getElem?_append_left hlt, hk], rfl, rfl, Or.inl rfl⟩
  | load h =>
    exact ⟨w, by rw [join, List.getElem?_append_left hlt, hk], rfl, rfl, Or.inl rfl⟩
  | record hj event =>
    obtain ⟨w', hw', haggregate, hidentity, hbase⟩ :=
      writer_of_put hj hk (Root.record_id _ event)
    exact ⟨w', hw', haggregate, hidentity, Or.inl hbase⟩
  | execute hj now command =>
    obtain ⟨w', hw', haggregate, hidentity, hbase⟩ :=
      writer_of_put hj hk (Root.execute_id _ now command)
    exact ⟨w', hw', haggregate, hidentity, Or.inl hbase⟩
  | @save j v hj correlation stamp =>
    rcases save_cases hj correlation stamp with
      ⟨hsave, -⟩ | ⟨envelopes, hcorrupted, hbuffer, hversion, hencode, hsave⟩
    · rw [hsave]
      exact ⟨w, hk, rfl, rfl, Or.inl rfl⟩
    · rw [hsave]
      by_cases hjk : j = k
      · -- the writer itself has appended, and builds on the stream as it now is
        subst hjk
        rw [hk] at hj
        cases hj
        refine ⟨_, List.getElem?_set_self hlt, rfl, rfl,
          Or.inr ⟨⟨hbuffer, correlation, stamp, ?_⟩, ?_⟩⟩
        · rw [Store.save_of_current hcorrupted hbuffer hversion, hencode]
          exact ⟨_, rfl⟩
        · exact (Store.stream_append_self _ _ _).symm
      · exact ⟨w, by rw [List.getElem?_set_ne hjk, hk], rfl, rfl, Or.inl rfl⟩

theorem writer_of_run {s t : Session} (h : Run s t) {k : Nat} {w : Writer}
    (hk : s.writers[k]? = some w) :
    ∃ w', t.writers[k]? = some w' ∧ w'.identity = w.identity := by
  induction h with
  | refl => exact ⟨w, hk, rfl⟩
  | tail _ hstep ih =>
    obtain ⟨v, hv, hidentity⟩ := ih
    obtain ⟨w', hw', -, hidentity', -⟩ := writer_of_step hstep hv
    exact ⟨w', hw', hidentity'.trans hidentity⟩

end Session

/-! ## The invariant of a writer -/

/-- The base is what the stream was when it had the length that the root expects. -/
structure Writer.Sound (w : Writer) (store : Store) : Prop where
  base_isPrefix : w.base <+: store.stream w.identity
  committed_eq : w.root.committed = w.base.length
  counted : w.root.Counted

/-- The stream is no longer what the root builds on. -/
def Writer.Outdated (w : Writer) (store : Store) : Prop :=
  store.stream w.identity ≠ w.base

namespace Writer

variable {w : Writer} {store : Store}

/-- Two lengths tell whether the stream is still the base. -/
theorem Sound.outdated_iff (h : w.Sound store) :
    w.Outdated store ↔ w.root.committed ≠ (store.stream w.identity).length := by
  rw [Outdated, h.committed_eq, not_iff_not]
  constructor
  · intro hstream
    rw [hstream]
  · intro hlength
    exact (h.base_isPrefix.eq_of_length hlength).symm

theorem Sound.mono {store' : Store} (h : w.Sound store)
    (hstream : store.stream w.identity <+: store'.stream w.identity) : w.Sound store' where
  base_isPrefix := h.base_isPrefix.trans hstream
  committed_eq := h.committed_eq
  counted := h.counted

/-- Recording an event concerns neither identity nor committed version. -/
theorem Sound.withRoot (h : w.Sound store) {root : Root w.aggregate} (hid : root.id = w.root.id)
    (hcommitted : root.committed = w.root.committed) (hcounted : root.Counted) :
    (w.withRoot root).Sound store where
  base_isPrefix := by
    show w.base <+: store.stream root.id.identity
    rw [hid]
    exact h.base_isPrefix
  committed_eq := hcommitted.trans h.committed_eq
  counted := hcounted

theorem Sound.record (h : w.Sound store) (event : w.aggregate.Event) :
    (w.withRoot (w.root.record event).2).Sound store :=
  h.withRoot (Root.record_id _ _) (Root.record_committed _ _) (h.counted.record event)

theorem Sound.execute (h : w.Sound store) (now : Timestamp) (command : w.aggregate.Command) :
    (w.withRoot (w.root.execute now command).2).Sound store :=
  Root.execute_preserves (P := fun root => (w.withRoot root).Sound store)
    (fun _ event hroot => hroot.record event) h now command

theorem sound_new {A : Aggregate} (id : A.Id) : Sound ⟨A, Root.new id, []⟩ store where
  base_isPrefix := List.nil_prefix
  committed_eq := rfl
  counted := Root.counted_ofHistory id []

theorem sound_of_load {A : Aggregate} {id : A.Id} {root : Root A}
    (h : store.load A id = .ok root) : Sound ⟨A, root, store.stream id.identity⟩ store := by
  obtain ⟨-, events, hrecords, rfl⟩ := Store.load_eq_ok_iff.1 h
  exact ⟨List.prefix_rfl, hrecords.length_eq.symm, Root.counted_ofHistory id events⟩

/-- After an append the committed version is again the length of the stream. -/
theorem Sound.drain (h : w.Sound store) (hcorrupted : w.root.corrupted = false)
    (hversion : w.root.committed = (store.stream w.identity).length) {envelopes : List Stored}
    (hlength : envelopes.length = w.root.uncommitted.length) :
    Sound ⟨w.aggregate, w.root.drain.2, store.stream w.identity ++ envelopes⟩
      (store.append w.identity envelopes) where
  base_isPrefix := ⟨[], (List.append_nil _).trans (Store.stream_append_self _ _ _).symm⟩
  committed_eq := by
    show w.root.version = (store.stream w.identity ++ envelopes).length
    rw [h.counted hcorrupted, hversion, List.length_append, hlength]
  counted := fun _ => rfl

end Writer

namespace Session

/-- Every writer of a session is sound. -/
def Sound (s : Session) : Prop := ∀ w ∈ s.writers, w.Sound s.store

theorem Sound.get {s : Session} (h : s.Sound) {k : Nat} {w : Writer}
    (hk : s.writers[k]? = some w) : w.Sound s.store :=
  h w (List.mem_of_getElem? hk)

theorem Sound.join {s : Session} (h : s.Sound) {w : Writer} (hw : w.Sound s.store) :
    (s.join w).Sound := by
  intro v hv
  rcases List.mem_append.1 hv with hv | hv
  · exact h v hv
  · rw [List.mem_singleton.1 hv]
    exact hw

theorem Sound.put {s : Session} (h : s.Sound) {k : Nat} {w : Writer} (hw : w.Sound s.store) :
    (s.put k w).Sound := by
  intro v hv
  rcases List.mem_or_eq_of_mem_set hv with hv | rfl
  · exact h v hv
  · exact hw

/-- One step keeps every writer sound. -/
theorem sound_of_step {s t : Session} (h : s.Sound) (hstep : Step s t) : t.Sound := by
  cases hstep with
  | new id => exact h.join (Writer.sound_new id)
  | load hload => exact h.join (Writer.sound_of_load hload)
  | record hk event => exact h.put ((h.get hk).record event)
  | execute hk now command => exact h.put ((h.get hk).execute now command)
  | @save k w hk correlation stamp =>
    rcases save_cases hk correlation stamp with
      ⟨hsave, -⟩ | ⟨envelopes, hcorrupted, -, hversion, hencode, hsave⟩
    · rw [hsave]
      exact h
    · intro v hv
      rw [hsave] at hv ⊢
      rcases List.mem_or_eq_of_mem_set hv with hv | rfl
      · -- the other writers see their stream grow, or another stream
        apply (h v hv).mono
        rw [Store.stream_append]
        split
        · next heq =>
          rw [heq]
          exact List.prefix_append _ _
        · exact List.prefix_rfl
      · exact (h.get hk).drain hcorrupted hversion (Store.length_of_encodeFrom hencode)

theorem sound_of_run {s t : Session} (h : s.Sound) (hrun : Run s t) : t.Sound := by
  induction hrun with
  | refl => exact h
  | tail _ hstep ih => exact sound_of_step ih hstep

theorem sound_of_reachable {s : Session} (h : Reachable s) : s.Sound :=
  sound_of_run (fun _ hw => absurd hw List.not_mem_nil) h

end Session

/-! ## Saves of sound writers -/

namespace Writer

variable {w : Writer} {store : Store} {correlation : Uuid} {stamp : Nat → Stamp}

theorem Sound.conflict_iff (h : w.Sound store) (hcorrupted : w.root.corrupted = false)
    (hbuffer : w.root.uncommitted ≠ []) :
    (∃ text expected actual, (store.save w.root correlation stamp).result
      = .error (.conflict text expected actual)) ↔ w.Outdated store := by
  rw [h.outdated_iff]
  constructor
  · rintro ⟨text, expected, actual, hconflict⟩ hversion
    rw [Store.save_of_current hcorrupted hbuffer hversion] at hconflict
    split at hconflict
    · next fault hencode =>
      -- a fault of the codec is no conflict
      cases hconflict
      cases Store.encodeFrom_eq_error hencode
    · cases hconflict
  · intro hversion
    rw [Store.save_of_stale hcorrupted hbuffer hversion]
    exact ⟨_, _, _, rfl⟩

theorem Sound.stream_of_save (h : w.Sound store) (hbuffer : w.root.uncommitted ≠ [])
    {version : Nat} (hok : (store.save w.root correlation stamp).result = .ok version) :
    ∃ encoded, Store.encodeFrom w.root.id correlation stamp w.base.length w.root.uncommitted
        = .ok encoded ∧
      (store.save w.root correlation stamp).store.stream w.identity = w.base ++ encoded := by
  rcases Store.save_cases store w.root correlation stamp with
    ⟨-, -, hempty⟩ | ⟨encoded, -, -, hversion, hencode, hsave⟩
  · exact absurd (hempty version hok) hbuffer
  · have hbase : store.stream w.identity = w.base := by
      by_contra houtdated
      exact h.outdated_iff.1 houtdated hversion
    refine ⟨encoded, by rw [← h.committed_eq, hencode], ?_⟩
    rw [hsave, ← hbase]
    exact Store.stream_append_self _ _ _

/-- What is outdated cannot be appended. -/
theorem Sound.not_appends (h : w.Sound store) (houtdated : w.Outdated store) :
    ¬ w.Appends store := by
  rintro ⟨hbuffer, correlation, stamp, version, hok⟩
  rcases Store.save_cases store w.root correlation stamp with
    ⟨-, -, hempty⟩ | ⟨-, -, -, hversion, -, -⟩
  · exact hbuffer (hempty version hok)
  · exact h.outdated_iff.1 houtdated hversion

/-- A save that would not append leaves the store as it is. -/
theorem store_save_of_not_appends (h : ¬ w.Appends store) :
    (store.save w.root correlation stamp).store = store := by
  rcases Store.save_cases store w.root correlation stamp with
    ⟨hstore, -, -⟩ | ⟨encoded, -, hbuffer, -, -, hsave⟩
  · exact hstore
  · exact absurd ⟨hbuffer, correlation, stamp, _, congrArg Saved.result hsave⟩ h

/-- A writer whose base has been built on does not append. -/
theorem Sound.not_appends_of_base_append (h : w.Sound store) {added : List Stored}
    (hadded : 0 < added.length) (hstream : w.base ++ added <+: store.stream w.identity) :
    ¬ w.Appends store := by
  apply h.not_appends
  intro heq
  have hlength := hstream.length_le
  rw [heq, List.length_append] at hlength
  omega

/-- An outdated base is a strict prefix of the stream, and stays one while the stream grows. -/
theorem Sound.outdated_mono {store' : Store} (h : w.Sound store) (houtdated : w.Outdated store)
    (hstream : store.stream w.identity <+: store'.stream w.identity) : w.Outdated store' := by
  intro heq
  rw [heq] at hstream
  exact houtdated (hstream.eq_of_length_le h.base_isPrefix.length_le)

end Writer

namespace Session

/-- Once outdated, always outdated: no step gives a writer a new base but an append of its own. -/
theorem outdated_of_step {s t : Session} (hs : s.Sound) (hstep : Step s t) {k : Nat} {w : Writer}
    (hk : s.writers[k]? = some w) (houtdated : w.Outdated s.store) :
    ∃ w', t.writers[k]? = some w' ∧ w'.identity = w.identity ∧ w'.base = w.base ∧
      w'.Outdated t.store := by
  obtain ⟨w', hk', -, hidentity, hbase | ⟨happends, -⟩⟩ := writer_of_step hstep hk
  · refine ⟨w', hk', hidentity, hbase, ?_⟩
    have hstill : w.Outdated t.store :=
      (hs.get hk).outdated_mono houtdated (stream_prefix_of_step hstep _)
    rw [Writer.Outdated, hidentity, hbase]
    exact hstill
  · exact absurd happends ((hs.get hk).not_appends houtdated)

theorem outdated_of_run {s t : Session} (hs : s.Sound) (hrun : Run s t) {k : Nat} {w : Writer}
    (hk : s.writers[k]? = some w) (houtdated : w.Outdated s.store) :
    ∃ w', t.writers[k]? = some w' ∧ w'.identity = w.identity ∧ w'.base = w.base ∧
      w'.Outdated t.store := by
  induction hrun with
  | refl => exact ⟨w, hk, rfl, rfl, houtdated⟩
  | tail hrun hstep ih =>
    obtain ⟨v, hv, hidentity, hbase, hv'⟩ := ih
    obtain ⟨w', hk', hidentity', hbase', hw'⟩ :=
      outdated_of_step (sound_of_run hs hrun) hstep hv hv'
    exact ⟨w', hk', hidentity'.trans hidentity, hbase'.trans hbase, hw'⟩

/-- An outdated writer never appends again, whatever else happens. -/
theorem not_appends_of_run {s t : Session} (hs : s.Sound) (hrun : Run s t) {k : Nat}
    {w w' : Writer} (hk : s.writers[k]? = some w) (houtdated : w.Outdated s.store)
    (hk' : t.writers[k]? = some w') : ¬ w'.Appends t.store := by
  obtain ⟨v, hv, -, -, houtdated'⟩ := outdated_of_run hs hrun hk houtdated
  rw [hk'] at hv
  cases hv
  exact ((sound_of_run hs hrun).get hk').not_appends houtdated'

/-- An append outdates every other writer of the identity. -/
theorem outdated_of_append {s : Session} (hs : s.Sound) {j k : Nat} (hne : j ≠ k) {v w : Writer}
    (hj : s.writers[j]? = some v) (hk : s.writers[k]? = some w) (hidentity : v.identity = w.identity)
    (hbuffer : w.root.uncommitted ≠ []) {correlation : Uuid} {stamp : Nat → Stamp} {version : Nat}
    (hok : (s.store.save w.root correlation stamp).result = .ok version) :
    (s.save k w correlation stamp).writers[j]? = some v ∧
      v.Outdated (s.save k w correlation stamp).store := by
  obtain ⟨encoded, hencode, hstream⟩ := (hs.get hk).stream_of_save hbuffer hok
  refine ⟨(List.getElem?_set_ne hne.symm).trans hj, ?_⟩
  intro heq
  have hgrown : v.base = w.base ++ encoded := by
    rw [← hstream, ← hidentity]
    exact heq.symm
  -- what the other builds on was stored before the append, so it lacks the new events
  have hle : v.base.length ≤ w.base.length := by
    have hcurrent : ¬ w.Outdated s.store := fun houtdated =>
      (hs.get hk).not_appends houtdated ⟨hbuffer, correlation, stamp, version, hok⟩
    rw [← not_not.1 hcurrent, ← hidentity]
    exact (hs.get hj).base_isPrefix.length_le
  have hpos : 0 < encoded.length := Store.length_pos_of_encodeFrom hencode hbuffer
  rw [hgrown, List.length_append] at hle
  omega

/-- No update is lost. A sound root with something to save meets a conflict exactly when its
stream is no longer its base, and a save that succeeds puts what was recorded behind the base.
From then on neither a root with the same base nor any other root of the identity in use at the
time appends; and a root that met a conflict never changes the store again. -/
theorem no_lost_update {s : Session} (hs : Reachable s) {k : Nat} {w : Writer}
    (hk : s.writers[k]? = some w) (hbuffer : w.root.uncommitted ≠ []) (correlation : Uuid)
    (stamp : Nat → Stamp) :
    (w.root.corrupted = false →
      ((∃ text expected actual, (s.store.save w.root correlation stamp).result
        = .error (.conflict text expected actual)) ↔ s.store.stream w.identity ≠ w.base)) ∧
    (∀ version, (s.store.save w.root correlation stamp).result = .ok version →
      (∃ encoded, Store.encodeFrom w.root.id correlation stamp w.base.length w.root.uncommitted
          = .ok encoded ∧
        (s.store.save w.root correlation stamp).store.stream w.identity = w.base ++ encoded) ∧
      ∀ t, Run (s.save k w correlation stamp) t → ∀ j v, t.writers[j]? = some v →
        v.identity = w.identity → (v.base = w.base ∨ j ≠ k ∧ j < s.writers.length) →
        ¬ v.Appends t.store) ∧
    (∀ text expected actual, (s.store.save w.root correlation stamp).result
        = .error (.conflict text expected actual) →
      ∀ t, Run s t → ∀ v, t.writers[k]? = some v → ∀ correlation stamp,
        (t.store.save v.root correlation stamp).store = t.store) := by
  have hsound : s.Sound := sound_of_reachable hs
  have hw : w.Sound s.store := hsound.get hk
  refine ⟨fun hcorrupted => hw.conflict_iff hcorrupted hbuffer, ?_, ?_⟩
  · intro version hok
    refine ⟨hw.stream_of_save hbuffer hok, ?_⟩
    intro t hrun j v hj hidentity hshared
    have hafter : (s.save k w correlation stamp).Sound :=
      sound_of_step hsound (.save hk correlation stamp)
    rcases hshared with hbase | ⟨hne, hlt⟩
    · -- the stream has grown beyond the base that both had, and only grows
      obtain ⟨encoded, hencode, hstream⟩ := hw.stream_of_save hbuffer hok
      have hgrown : v.base ++ encoded <+: t.store.stream v.identity := by
        rw [hbase, hidentity, ← hstream]
        exact stream_prefix_of_run hrun w.identity
      exact ((sound_of_run hafter hrun).get hj).not_appends_of_base_append
        (Store.length_pos_of_encodeFrom hencode hbuffer) hgrown
    · -- a writer in use at the time of the append is outdated by it, and stays so
      obtain ⟨u, hu⟩ : ∃ u, s.writers[j]? = some u := ⟨_, List.getElem?_eq_getElem hlt⟩
      have hju : (s.save k w correlation stamp).writers[j]? = some u :=
        (List.getElem?_set_ne hne.symm).trans hu
      obtain ⟨v', hv', hidentity'⟩ := writer_of_run hrun hju
      rw [hj] at hv'
      cases hv'
      obtain ⟨hu', houtdated⟩ :=
        outdated_of_append hsound hne hu hk (hidentity'.symm.trans hidentity) hbuffer hok
      exact not_appends_of_run hafter hrun hu' houtdated hj
  · intro text expected actual hconflict t hrun v hv correlation' stamp'
    have hcorrupted : w.root.corrupted = false := Store.corrupted_of_conflict hconflict
    have houtdated : w.Outdated s.store :=
      (hw.conflict_iff hcorrupted hbuffer).1 ⟨text, expected, actual, hconflict⟩
    exact Writer.store_save_of_not_appends (not_appends_of_run hsound hrun hk houtdated hv)

/-- A root of a new order, which has recorded that the order is created. -/
def contender : Root Order.aggregate :=
  let now : Timestamp := ⟨⟨1970, 1, 1, by decide, by decide⟩, 0, 0, by decide, by decide⟩
  ((Root.new (A := Order.aggregate) ⟨Uuid.nil⟩).record (Order.Event.created ⟨Uuid.nil⟩ [] now)).2

/-- Two such roots of one order. -/
def contested : Session :=
  let fresh : Writer := ⟨Order.aggregate, Root.new ⟨Uuid.nil⟩, []⟩
  (((start.join fresh).join fresh).put 0 (fresh.withRoot contender)).put 1 (fresh.withRoot contender)

theorem reachable_contested : Reachable contested :=
  (((Relation.ReflTransGen.refl.tail (.new (A := Order.aggregate) ⟨Uuid.nil⟩)).tail
    (.new (A := Order.aggregate) ⟨Uuid.nil⟩)).tail (.record (k := 0) rfl _)).tail
    (.record (k := 1) rfl _)

/-- Of two roots of a new order the first to be saved wins. The other meets a conflict, and never
changes the store. -/
theorem no_lost_update_contested :
    contested.writers = [⟨Order.aggregate, contender, []⟩, ⟨Order.aggregate, contender, []⟩] ∧
    ∀ correlation stamp,
      (contested.store.save contender correlation stamp).result = .ok 1 ∧
      ∀ won, won = contested.save 0 ⟨Order.aggregate, contender, []⟩ correlation stamp →
        (∃ text expected actual, (won.store.save contender correlation stamp).result
          = .error (.conflict text expected actual)) ∧
        ∀ t, Run won t → ∀ u, t.writers[1]? = some u →
          ¬ u.Appends t.store ∧ (t.store.save u.root correlation stamp).store = t.store := by
  refine ⟨rfl, fun correlation stamp => ⟨rfl, ?_⟩⟩
  rintro won rfl
  have hbuffer : contender.uncommitted ≠ [] := by decide
  obtain ⟨⟨encoded, hencode, hstream⟩, hrivals⟩ :=
    (no_lost_update reachable_contested (k := 0) rfl hbuffer correlation stamp).2.1 1 rfl
  have hlost := no_lost_update (reachable_contested.tail (.save (k := 0) rfl correlation stamp))
    (k := 1) rfl hbuffer correlation stamp
  have hconflict := (hlost.1 rfl).2 (by
    intro heq
    have hempty := congrArg List.length (hstream.symm.trans heq)
    rw [List.length_append, Store.length_of_encodeFrom hencode] at hempty
    cases hempty)
  refine ⟨hconflict, fun t hrun u hu => ⟨?_, ?_⟩⟩
  · obtain ⟨u', hu', hidentity⟩ := writer_of_run hrun (k := 1) rfl
    rw [hu] at hu'
    cases hu'
    exact hrivals t hrun 1 u hu hidentity (Or.inr ⟨by decide, by decide⟩)
  · obtain ⟨text, expected, actual, h⟩ := hconflict
    exact hlost.2.2 text expected actual h t hrun u hu correlation stamp

end Session

end EventSourcing
