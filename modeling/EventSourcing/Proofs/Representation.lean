import EventSourcing.Order.Decision
import EventSourcing.Proofs.Streams
import Mathlib.Algebra.BigOperators.Finprod
import Mathlib.Logic.Relation

/-!
# What is stored

Roots of any kinds share one store, and whoever holds a root may drain it: by a save, or beside the
store, so that events are lost and the root counts what no stream has. However that goes, the
streams stay in order. A save takes the numbers of its envelopes from the root and not from the
stream; that they follow on the ones before is what the comparison of versions is for.

* `Written.Made` says what the envelope of an event is.
* `Workspace.Sound` is the invariant: streams are numbered from one and made of the events that saves
  have written, and roots count what they have applied.
* `Store.eventCount_eq_finsum` sums up the streams.
* `Workspace.streams_represent` is what holds after every run.
-/

namespace EventSourcing

namespace Store

/-! ## The streams that are there -/

/-- A stream after an append was there before, or is the one that envelopes were added to. -/
theorem mem_appendTo {i j : Identity} {added stream : List Stored}
    {streams : List (Identity × List Stored)} (h : (j, stream) ∈ appendTo i added streams) :
    (j, stream) ∈ streams ∨ ∃ old, stream = old ++ added := by
  induction streams with
  | nil =>
    obtain ⟨-, rfl⟩ := Prod.mk.inj (List.mem_singleton.1 h)
    exact Or.inr ⟨[], rfl⟩
  | cons entry rest ih =>
    rw [appendTo] at h
    split at h
    · rcases List.mem_cons.1 h with heq | hrest
      · exact Or.inr ⟨entry.2, congrArg Prod.snd heq⟩
      · exact Or.inl (List.mem_cons_of_mem entry hrest)
    · rcases List.mem_cons.1 h with heq | hrest
      · exact Or.inl (heq ▸ List.mem_cons_self)
      · exact (ih hrest).imp_left (List.mem_cons_of_mem entry)

theorem lookup_of_mem {i : Identity} {stream : List Stored}
    {streams : List (Identity × List Stored)} (hnodup : (streams.map Prod.fst).Nodup)
    (h : (i, stream) ∈ streams) : streams.lookup i = some stream := by
  induction streams with
  | nil => cases h
  | cons entry rest ih =>
    rw [List.map_cons, List.nodup_cons] at hnodup
    rw [List.lookup_cons]
    rcases List.mem_cons.1 h with rfl | hrest
    · rw [beq_self_eq_true]
    · -- no other stream stands under the identity
      have hne : (i == entry.1) = false := by
        refine beq_eq_false_iff_ne.2 fun heq => hnodup.1 ?_
        rw [← heq]
        exact List.mem_map_of_mem hrest
      rw [hne]
      exact ih hnodup.2 hrest

theorem stream_of_mem {store : Store} {i : Identity} {stream : List Stored}
    (h : (i, stream) ∈ store.streams) : store.stream i = stream := by
  rw [Store.stream, stream?, lookup_of_mem store.nodup_keys h]
  rfl

/-- Where something is stored, there is a stream. -/
theorem mem_keys_of_currentVersion_ne_zero {store : Store} {i : Identity}
    (h : store.currentVersion i ≠ 0) : i ∈ store.streams.map Prod.fst := by
  by_contra hmem
  have hlookup : store.streams.lookup i = none := by
    rw [List.lookup_eq_none_iff]
    intro entry hentry
    rw [bne_iff_ne]
    rintro rfl
    exact hmem (List.mem_map_of_mem hentry)
  refine h ?_
  rw [currentVersion_eq, Store.stream, stream?, hlookup]
  rfl

/-- Only finitely many identities have something stored, and the events of a store are those of all
identities together. -/
theorem eventCount_eq_finsum (store : Store) :
    (Function.support store.currentVersion).Finite ∧
      store.eventCount = ∑ᶠ i, store.currentVersion i := by
  have hsupport : Function.support store.currentVersion
      ⊆ ((store.streams.map Prod.fst).toFinset : Set Identity) := by
    intro i hi
    rw [List.coe_toFinset]
    exact mem_keys_of_currentVersion_ne_zero hi
  refine ⟨(Finset.finite_toSet _).subset hsupport, ?_⟩
  rw [finsum_eq_sum_of_support_subset _ hsupport, List.sum_toFinset _ store.nodup_keys,
    List.map_map, eventCount, List.length_flatMap]
  refine congrArg List.sum (List.map_congr_left fun entry hentry => ?_)
  show entry.2.length = (store.stream entry.1).length
  rw [stream_of_mem hentry]

end Store

/-! ## Envelopes of written events -/

/-- An event that a save has appended, with the kind and the identifier of the root and the
correlation of the save. -/
structure Written where
  aggregate : Aggregate
  id : aggregate.Id
  correlation : Uuid
  event : aggregate.Event

/-- An envelope under an identity is that of a written event. Nothing but its place in the stream,
its own identifier and its time is left open. -/
structure Written.Made (i : Identity) (e : Written) (stored : Stored) : Prop where
  kind : i.kind = e.aggregate.idKind.tag
  uuid : i.uuid = e.id.uuid
  aggregateId : stored.aggregateId = i.uuid
  aggregateType : stored.aggregateType = e.aggregate.name
  correlation : stored.correlation = e.correlation
  causation : stored.causation = none
  metadata : stored.metadata = []
  tag : stored.tag = e.aggregate.schema.tag e.event
  version : stored.version = e.aggregate.schema.version e.event
  data : e.aggregate.schema.write e.event = some stored.data

namespace Store

variable {A : Aggregate} {id : A.Id} {correlation : Uuid} {stamp : Nat → Stamp}

theorem made_of_encode {sequence : Nat} {event : A.Event} {s : Stamp} {stored : Stored}
    (h : ((Envelope.new A.schema A.name id.uuid sequence event correlation s).encode A.schema
      : Except A.Fault _) = .ok stored) :
    stored.sequence = sequence ∧ Written.Made id.identity ⟨A, id, correlation, event⟩ stored := by
  unfold Envelope.encode at h
  split at h
  · next text hwrite =>
    cases h
    exact ⟨rfl, rfl, rfl, rfl, rfl, rfl, rfl, rfl, rfl, rfl, hwrite⟩
  · cases h

/-- Events are encoded one by one, with the numbers behind a version. -/
theorem made_of_encodeFrom {version : Nat} {events : List A.Event} {encoded : List Stored}
    (h : encodeFrom id correlation stamp version events = .ok encoded) :
    encoded.map Envelope.sequence = List.range' (version + 1) encoded.length ∧
      List.Forall₂ (Written.Made id.identity)
        (events.map (Written.mk A id correlation)) encoded := by
  induction events generalizing version encoded with
  | nil =>
    cases h
    exact ⟨rfl, List.Forall₂.nil⟩
  | cons event rest ih =>
    obtain ⟨stored, storedRest, hhead, htail, rfl⟩ := encodeFrom_cons_eq_ok_iff.1 h
    obtain ⟨hsequence, hmade⟩ := made_of_encode hhead
    obtain ⟨hsequences, hrest⟩ := ih htail
    refine ⟨?_, List.Forall₂.cons hmade hrest⟩
    rw [List.map_cons, List.length_cons, List.range'_succ, hsequence, hsequences]

/-- A save that appends returns the length of the stream as it then is, and the root counts and has
committed as much. -/
theorem version_of_save {store : Store} {root : Root A} (hcounted : root.Counted)
    (hbuffer : root.uncommitted ≠ []) {version : Nat}
    (h : (store.save root correlation stamp).result = .ok version) :
    version = (store.save root correlation stamp).store.currentVersion root.identity ∧
      (store.save root correlation stamp).root.version = version ∧
      (store.save root correlation stamp).root.committed = version := by
  rcases save_cases store root correlation stamp with
    ⟨-, -, hempty⟩ | ⟨envelopes, hcorrupted, -, hversion, hencode, hsave⟩
  · exact absurd (hempty version h) hbuffer
  · rw [hsave] at h ⊢
    obtain rfl := Except.ok.inj h
    have hroot : root.drain.2.version = root.committed + root.uncommitted.length :=
      hcounted hcorrupted
    refine ⟨?_, hroot, hroot⟩
    rw [currentVersion_eq, stream_append_self, List.length_append, length_of_encodeFrom hencode,
      hversion, currentVersion_eq]

end Store

/-! ## Roots of any kinds over one store -/

/-- A root with its kind. -/
structure AnyRoot where
  aggregate : Aggregate
  root : Root aggregate

/-- Roots over one store, and the events that saves have written, in their order. -/
structure Workspace where
  store : Store
  roots : List AnyRoot
  written : List Written

namespace Workspace

/-- Nothing is stored, and no root is in use. -/
def start : Workspace := ⟨.empty, [], []⟩

/-- Another root comes into use. -/
def join (w : Workspace) (r : AnyRoot) : Workspace :=
  { w with roots := w.roots ++ [r] }

/-- One root changes. -/
def put (w : Workspace) (k : Nat) (r : AnyRoot) : Workspace :=
  { w with roots := w.roots.set k r }

/-- One root is saved; if that succeeds, what it had recorded is written. -/
def save (w : Workspace) (k : Nat) (r : AnyRoot) (correlation : Uuid) (stamp : Nat → Stamp) :
    Workspace :=
  let saved := w.store.save r.root correlation stamp
  { store := saved.store
    roots := w.roots.set k ⟨r.aggregate, saved.root⟩
    written := if saved.result.toBool
      then w.written ++ r.root.uncommitted.map (Written.mk r.aggregate r.root.id correlation)
      else w.written }

/-- One access to the store or one change of a root. -/
inductive Step : Workspace → Workspace → Prop
  | new {w : Workspace} {A : Aggregate} (id : A.Id) : Step w (w.join ⟨A, Root.new id⟩)
  | load {w : Workspace} {A : Aggregate} {id : A.Id} {root : Root A}
      (h : w.store.load A id = .ok root) : Step w (w.join ⟨A, root⟩)
  | record {w : Workspace} {k : Nat} {r : AnyRoot} (hk : w.roots[k]? = some r)
      (event : r.aggregate.Event) : Step w (w.put k ⟨r.aggregate, (r.root.record event).2⟩)
  | execute {w : Workspace} {k : Nat} {r : AnyRoot} (hk : w.roots[k]? = some r) (now : Timestamp)
      (command : r.aggregate.Command) :
      Step w (w.put k ⟨r.aggregate, (r.root.execute now command).2⟩)
  | drain {w : Workspace} {k : Nat} {r : AnyRoot} (hk : w.roots[k]? = some r) :
      Step w (w.put k ⟨r.aggregate, r.root.drain.2⟩)
  | markCommitted {w : Workspace} {k : Nat} {r : AnyRoot} (hk : w.roots[k]? = some r) :
      Step w (w.put k ⟨r.aggregate, r.root.markCommitted⟩)
  | save {w : Workspace} {k : Nat} {r : AnyRoot} (hk : w.roots[k]? = some r) (correlation : Uuid)
      (stamp : Nat → Stamp) : Step w (w.save k r correlation stamp)

/-- What can come of nothing in any number of steps. -/
def Reachable (w : Workspace) : Prop := Relation.ReflTransGen Step start w

/-- The events that were written under an identity. -/
def writtenTo (w : Workspace) (i : Identity) : List Written :=
  w.written.filter fun e => e.id.identity = i

/-- The invariant of a run. -/
structure Sound (w : Workspace) : Prop where
  counted : ∀ r ∈ w.roots, r.root.Counted
  nonempty : ∀ i stream, (i, stream) ∈ w.store.streams → stream ≠ []
  numbered : ∀ i, (w.store.stream i).map Envelope.sequence
    = List.range' 1 (w.store.stream i).length
  made : ∀ i, List.Forall₂ (Written.Made i) (w.writtenTo i) (w.store.stream i)

theorem sound_start : Sound start where
  counted _ hr := absurd hr List.not_mem_nil
  nonempty _ _ h := absurd h List.not_mem_nil
  numbered _ := rfl
  made _ := List.Forall₂.nil

variable {w : Workspace} {k : Nat} {r : AnyRoot}

theorem Sound.get (h : w.Sound) (hk : w.roots[k]? = some r) : r.root.Counted :=
  h.counted r (List.mem_of_getElem? hk)

/-- A change of roots alone keeps the invariant, if they count on. -/
theorem Sound.withRoots (h : w.Sound) {roots : List AnyRoot}
    (hroots : ∀ r ∈ roots, r.root.Counted) : Sound { w with roots := roots } :=
  { h with counted := hroots }

theorem Sound.join (h : w.Sound) (hr : r.root.Counted) : (w.join r).Sound := by
  refine h.withRoots fun s hs => ?_
  rcases List.mem_append.1 hs with hs | hs
  · exact h.counted s hs
  · rw [List.mem_singleton.1 hs]
    exact hr

theorem Sound.put (h : w.Sound) (hr : r.root.Counted) : (w.put k r).Sound := by
  refine h.withRoots fun s hs => ?_
  rcases List.mem_or_eq_of_mem_set hs with hs | rfl
  · exact h.counted s hs
  · exact hr

/-- Events that are written behind the streams of one identity keep the invariant, if their envelopes
are made of them and numbered on. -/
theorem Sound.append (h : w.Sound) {i : Identity} {envelopes : List Stored} {events : List Written}
    (hne : envelopes ≠ []) (hi : ∀ e ∈ events, e.id.identity = i)
    (hnumbered : envelopes.map Envelope.sequence
      = List.range' ((w.store.stream i).length + 1) envelopes.length)
    (hmade : List.Forall₂ (Written.Made i) events envelopes) :
    Sound ⟨w.store.append i envelopes, w.roots, w.written ++ events⟩ where
  counted := h.counted
  nonempty j stream hj := by
    rcases Store.mem_appendTo hj with hj | ⟨old, rfl⟩
    · exact h.nonempty j stream hj
    · exact List.append_ne_nil_of_right_ne_nil old hne
  numbered j := by
    rw [Store.stream_append]
    by_cases hj : j = i
    · -- the new numbers go on where the old ones end
      rw [if_pos hj, List.map_append, List.length_append, h.numbered, hnumbered, Nat.add_comm _ 1,
        List.range'_append_1]
    · rw [if_neg hj]
      exact h.numbered j
  made j := by
    rw [Store.stream_append, writtenTo, List.filter_append]
    by_cases hj : j = i
    · subst hj
      have hall : events.filter (fun e => e.id.identity = j) = events :=
        List.filter_eq_self.2 fun e he => decide_eq_true (hi e he)
      rw [if_pos rfl, hall]
      exact List.rel_append (h.made j) hmade
    · have hnone : events.filter (fun e => e.id.identity = j) = [] :=
        List.filter_eq_nil_iff.2 fun e he heq => hj ((of_decide_eq_true heq).symm.trans (hi e he))
      rw [if_neg hj, hnone, List.append_nil]
      exact h.made j

/-- A save that succeeds writes what the root had recorded; any other changes nothing. -/
theorem Sound.save (h : w.Sound) (hk : w.roots[k]? = some r) (correlation : Uuid)
    (stamp : Nat → Stamp) : (w.save k r correlation stamp).Sound := by
  rcases Store.save_cases w.store r.root correlation stamp with
    ⟨hstore, hroot, hempty⟩ | ⟨envelopes, -, hbuffer, hversion, hencode, hsave⟩
  · have hwritten : (w.save k r correlation stamp).written = w.written := by
      show (if _ then _ else _) = w.written
      cases hresult : (w.store.save r.root correlation stamp).result with
      | error fault => rfl
      | ok version =>
        rw [hempty version hresult]
        exact List.append_nil _
    have hsame : w.save k r correlation stamp = w.put k r := by
      calc w.save k r correlation stamp
          = ⟨(w.store.save r.root correlation stamp).store,
              w.roots.set k ⟨r.aggregate, (w.store.save r.root correlation stamp).root⟩,
              (w.save k r correlation stamp).written⟩ := rfl
        _ = w.put k r := by
          rw [hstore, hroot, hwritten]
          rfl
    rw [hsame]
    exact h.put (h.get hk)
  · obtain ⟨hnumbered, hmade⟩ := Store.made_of_encodeFrom hencode
    have hsame : w.save k r correlation stamp =
        ⟨w.store.append r.root.identity envelopes, (w.put k ⟨r.aggregate, r.root.drain.2⟩).roots,
          w.written ++ r.root.uncommitted.map (Written.mk r.aggregate r.root.id correlation)⟩ := by
      rw [Workspace.save, hsave]
      rfl
    rw [hsame]
    have hput : (w.put k ⟨r.aggregate, r.root.drain.2⟩).Sound := h.put (Root.counted_drain _)
    refine hput.append ?_ ?_ ?_ hmade
    · exact List.length_pos_iff.1 (Store.length_pos_of_encodeFrom hencode hbuffer)
    · intro e he
      obtain ⟨event, -, rfl⟩ := List.mem_map.1 he
      rfl
    · -- the numbers come from the root, which has committed as much as is stored
      rw [hnumbered, hversion]
      rfl

/-- One step keeps the invariant. -/
theorem sound_of_step {v w : Workspace} (h : v.Sound) (hstep : Step v w) : w.Sound := by
  cases hstep with
  | new id => exact h.join fun _ => rfl
  | load hload =>
    obtain ⟨-, history, -, rfl⟩ := Store.load_eq_ok_iff.1 hload
    exact h.join (Root.counted_ofHistory _ history)
  | record hk event => exact h.put ((h.get hk).record event)
  | execute hk now command => exact h.put ((h.get hk).execute now command)
  | drain hk => exact h.put (Root.counted_drain _)
  | markCommitted hk => exact h.put (Root.counted_markCommitted _)
  | save hk correlation stamp => exact h.save hk correlation stamp

theorem sound_of_reachable (h : w.Reachable) : w.Sound := by
  induction h with
  | refl => exact sound_start
  | tail _ hstep ih => exact sound_of_step ih hstep

/-- The envelope at a place of a stream. -/
theorem Sound.made_at (h : w.Sound) {i : Identity} {n : Nat} {stored : Stored}
    (hn : (w.store.stream i)[n]? = some stored) :
    stored.sequence = n + 1 ∧ ∃ e, (w.writtenTo i)[n]? = some e ∧ e.Made i stored := by
  obtain ⟨hlt, hget⟩ := List.getElem?_eq_some_iff.1 hn
  constructor
  · have hsequence := congrArg (fun numbers => numbers[n]?) (h.numbered i)
    simp only [List.getElem?_map, hn, List.getElem?_range' hlt, Option.map_some] at hsequence
    have heq := Option.some.inj hsequence
    omega
  · have hlt' : n < (w.writtenTo i).length := (h.made i).length_eq ▸ hlt
    refine ⟨(w.writtenTo i)[n], List.getElem?_eq_getElem hlt', ?_⟩
    rw [← hget]
    exact (h.made i).get hlt' hlt

/-- What is stored after any run of roots of any kinds over a store that starts empty, however they are
drained:

* every stream that is there has an envelope, and an envelope for each event that was written under
  its identity, in order: numbered from one, and made of nothing but the event and its save;
* a save that appends returns the length of the stream as it then is, which is the version of the
  root and what it has committed;
* the events of the store are those of all identities together. -/
theorem streams_represent (h : w.Reachable) :
    (∀ i stream, (i, stream) ∈ w.store.streams → stream ≠ []) ∧
    (∀ i, (w.store.stream i).length = (w.writtenTo i).length ∧
      ∀ n stored, (w.store.stream i)[n]? = some stored →
        stored.sequence = n + 1 ∧ ∃ e, (w.writtenTo i)[n]? = some e ∧ e.Made i stored) ∧
    (∀ (k : Nat) (r : AnyRoot), w.roots[k]? = some r → r.root.uncommitted ≠ [] →
      ∀ correlation stamp version,
      let saved := w.store.save r.root correlation stamp
      saved.result = .ok version →
        version = saved.store.currentVersion r.root.identity ∧
        saved.root.version = version ∧ saved.root.committed = version) ∧
    (Function.support w.store.currentVersion).Finite ∧
    w.store.eventCount = ∑ᶠ i, w.store.currentVersion i := by
  have hw := sound_of_reachable h
  refine ⟨hw.nonempty, fun i => ⟨(hw.made i).length_eq.symm, fun n stored => hw.made_at⟩, ?_,
    w.store.eventCount_eq_finsum⟩
  exact fun k r hk hbuffer correlation stamp version hok =>
    Store.version_of_save (hw.get hk) hbuffer hok

/-- Two roots of one new order. The first is drained beside the store, the second is saved; then the
first records that the order is confirmed, and its save numbers this event on. -/
theorem streams_represent_drained :
    let i : Identity := ⟨"order", Uuid.nil⟩
    ∃ w : Workspace, w.Reachable ∧ w.store.eventCount = 2 ∧
      (∃ stored, (w.store.stream i)[1]? = some stored ∧ stored.sequence = 2 ∧
        ∃ e, (w.writtenTo i)[1]? = some e ∧ e.Made i stored) ∧
      ∑ᶠ i, w.store.currentVersion i = 2 := by
  intro i
  let now : Timestamp := ⟨⟨1970, 1, 1, by decide, by decide⟩, 0, 0, by decide, by decide⟩
  let id : Order.aggregate.Id := ⟨Uuid.nil⟩
  let created : Order.aggregate.Event := Order.Event.created ⟨Uuid.nil⟩ [] now
  let confirmed : Order.aggregate.Event := Order.Event.confirmed now
  let stamp : Nat → Stamp := fun _ => ⟨Uuid.nil, now⟩
  have hsaved := (((((Relation.ReflTransGen.refl (r := Step) (a := start)).tail (.new id)).tail
    (.record (k := 0) rfl created)).tail (.drain (k := 0) rfl)).tail (.new id)).tail
    (.record (k := 1) rfl created)
  have hreach := ((hsaved.tail (.save (k := 1) rfl Uuid.nil stamp)).tail
    (.record (k := 0) rfl confirmed)).tail (.save (k := 0) rfl Uuid.nil stamp)
  obtain ⟨-, hstreams, -, -, hcount⟩ := streams_represent hreach
  exact ⟨_, hreach, rfl, ⟨_, rfl, (hstreams i).2 1 _ rfl⟩, hcount.symm⟩

end Workspace

end EventSourcing
