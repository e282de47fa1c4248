import EventSourcing.Proofs.Interleaving

/-!
# Serializability of the order service

Any number of calls run at once on a store that starts empty, and a schedule says which of them
makes the next access. Which calls made the store grow, and in which order, is all that counts in
the end: these are the calls that succeeded, and run alone one after another they do the same.

* `Pool.Sound` is the invariant of a run; it ties every call to a prefix of its stream.
* `Pool.step_cases` is one step of the pool: it leaves the store as it is, or appends one event.
* `Pool.handle_serializable` is what holds after every schedule.
-/

namespace EventSourcing

namespace Order

/-- Calls in progress on one store: what is left of each, and which of them have made the store
grow, in order. -/
structure Pool (ι : Type) where
  store : Store
  metrics : Metrics
  programs : ι → Program aggregate (Except Failure Nat)
  growth : List ι

namespace Pool

variable {ι : Type}

/-- Nothing is stored, and no call has made a step. -/
def start (calls : ι → Call) : Pool ι where
  store := .empty
  metrics := .empty
  programs k := (calls k).handle Program.access
  growth := []

/-- One call makes its next access to the store. -/
def step [DecidableEq ι] (pool : Pool ι) (k : ι) : Pool ι :=
  let (program, store, metrics) := (pool.programs k).step (pool.store, pool.metrics)
  { store := store
    metrics := metrics
    programs := Function.update pool.programs k program
    growth := if store.streams = pool.store.streams then pool.growth else pool.growth ++ [k] }

/-- The calls after the accesses of a schedule; a call that is done makes no more of them. -/
def run [DecidableEq ι] (calls : ι → Call) (schedule : List ι) : Pool ι :=
  schedule.foldl step (start calls)

/-- What a call has returned, if it is done. -/
def result (pool : Pool ι) (k : ι) : Option (Except Failure Nat) :=
  (pool.programs k).result?

theorem programs_step_self [DecidableEq ι] (pool : Pool ι) (k : ι) :
    (pool.step k).programs k = ((pool.programs k).step (pool.store, pool.metrics)).1 :=
  Function.update_self ..

theorem programs_step_of_ne [DecidableEq ι] (pool : Pool ι) {j k : ι} (h : j ≠ k) :
    (pool.step k).programs j = pool.programs j :=
  Function.update_of_ne h ..

theorem result_step_of_ne [DecidableEq ι] (pool : Pool ι) {j k : ι} (h : j ≠ k) :
    (pool.step k).result j = pool.result j := by
  rw [result, programs_step_of_ne pool h, result]

/-- The calls on an order that have made the store grow. -/
def onOrder (calls : ι → Call) (pool : Pool ι) (id : Id) : List ι :=
  pool.growth.filter fun k => (calls k).id = id

/-- Calls that run one after another on a store that starts empty: their results, and what is then
stored and counted. -/
def alone (calls : ι → Call) (ks : List ι) : List (Except Failure Nat) × Store × Metrics :=
  (ks.mapM fun k => (calls k).handle StoreAccess.ofState) (.empty, .empty)

theorem alone_concat {calls : ι → Call} {ks : List ι} {k : ι} {results : List (Except Failure Nat)}
    {r : Except Failure Nat} {state state' : Store × Metrics}
    (hks : alone calls ks = (results, state))
    (hk : (calls k).handle StoreAccess.ofState state = (r, state')) :
    alone calls (ks ++ [k]) = (results ++ [r], state') := by
  have hrun : alone calls (ks ++ [k]) =
      let last := (calls k).handle StoreAccess.ofState (alone calls ks).2
      ((alone calls ks).1 ++ [last.1], last.2) := by
    unfold alone
    rw [List.mapM_append, List.mapM_cons, List.mapM_nil]
    rfl
  rw [hrun, hks, hk]

/-- The invariant of a run. -/
structure Sound (calls : ι → Call) (pool : Pool ι) : Prop where
  records : ∀ id : Id, ∃ events, aggregate.Records (pool.store.stream id.identity) events
  phase : ∀ k, (calls k).Phase pool.store (pool.programs k)
  nodup : pool.growth.Nodup
  mem_growth : ∀ k, k ∈ pool.growth ↔ ∃ version, pool.result k = some (.ok version)
  length_stream : ∀ id : Id,
    (pool.store.stream id.identity).length = (onOrder calls pool id).length
  placed : ∀ (id : Id) n k, (onOrder calls pool id)[n]? = some k →
    pool.result k = some (.ok (n + 1)) ∧
      ∃ e, (pool.store.stream id.identity)[n]? = some ((calls k).envelope n e)
  alone_eq : ∃ results metrics, alone calls pool.growth = (results, (pool.store, metrics)) ∧
    pool.growth.map pool.result = results.map some

theorem sound_start (calls : ι → Call) : Sound calls (start calls) where
  records _ := ⟨[], Aggregate.records_nil⟩
  phase _ := .asking
  nodup := List.nodup_nil
  mem_growth k := by
    refine ⟨fun h => absurd h List.not_mem_nil, ?_⟩
    rintro ⟨version, hresult⟩
    rw [show (start calls).result k = none from (calls k).result?_handle] at hresult
    cases hresult
  length_stream _ := rfl
  placed _ n k h := by cases h
  alone_eq := ⟨[], .empty, rfl, rfl⟩

variable {calls : ι → Call} {pool : Pool ι}

/-- A call that was not done appends an event behind its stream, and is done. -/
structure Appended (calls : ι → Call) (pool pool' : Pool ι) (k : ι) (e : Event) : Prop where
  pending : pool.result k = none
  growth : pool'.growth = pool.growth ++ [k]
  store : pool'.store = pool.store.append (calls k).id.identity
    [(calls k).envelope (pool.store.stream (calls k).id.identity).length e]
  result : pool'.result k = some (.ok ((pool.store.stream (calls k).id.identity).length + 1))
  programs : ∀ j, j ≠ k → pool'.programs j = pool.programs j

/-- One step of a pool leaves the store as it is, and every call as far from success as it was; or
a call appends the event that it has decided on the whole stream. -/
theorem step_cases [DecidableEq ι] (h : Sound calls pool) (k : ι) :
    ((pool.step k).store = pool.store ∧ (pool.step k).growth = pool.growth ∧
      ∀ j, (calls j).Quiet pool.store (pool.programs j) ((pool.step k).programs j)) ∨
    ∃ events e, (calls k).Prepared (pool.store.stream (calls k).id.identity) events e ∧
      Appended calls pool (pool.step k) k e := by
  obtain ⟨events, hrecords⟩ := h.records (calls k).id
  rcases (h.phase k).step hrecords pool.metrics with
    ⟨hstore, hquiet⟩ | ⟨e, hprepared, hpending, hprogram, hstore⟩
  · -- the same store has the same streams, so the growth is the same
    refine Or.inl ⟨hstore, if_pos (congrArg Store.streams hstore), fun j => ?_⟩
    by_cases hj : j = k
    · rw [hj, programs_step_self]
      exact hquiet
    · rw [programs_step_of_ne pool hj]
      exact ⟨h.phase j, fun _ => Iff.rfl⟩
  · refine Or.inr ⟨events, e, hprepared, hpending, if_neg fun hsame => ?_, hstore, ?_,
      fun j hj => programs_step_of_ne pool hj⟩
    · exact Store.append_streams_ne _ _ (List.cons_ne_nil _ _)
        ((congrArg Store.streams hstore).symm.trans hsame)
    · rw [result, programs_step_self, hprogram]
      rfl

/-- A step that leaves the store as it is keeps the invariant. -/
theorem Sound.of_quiet {pool' : Pool ι} (h : Sound calls pool) (hstore : pool'.store = pool.store)
    (hgrowth : pool'.growth = pool.growth)
    (hquiet : ∀ k, (calls k).Quiet pool.store (pool.programs k) (pool'.programs k)) :
    Sound calls pool' := by
  have hresult : ∀ k version, pool'.result k = some (.ok version) ↔
      pool.result k = some (.ok version) := fun k => (hquiet k).2
  have horder : ∀ id, onOrder calls pool' id = onOrder calls pool id := fun id => by
    rw [onOrder, hgrowth, onOrder]
  constructor
  case records =>
    rw [hstore]
    exact h.records
  case phase =>
    rw [hstore]
    exact fun k => (hquiet k).1
  case nodup =>
    rw [hgrowth]
    exact h.nodup
  case mem_growth =>
    intro k
    rw [hgrowth, h.mem_growth]
    exact exists_congr fun version => (hresult k version).symm
  case length_stream =>
    intro id
    rw [hstore, horder]
    exact h.length_stream id
  case placed =>
    intro id n k hk
    rw [horder] at hk
    rw [hstore, hresult]
    exact h.placed id n k hk
  case alone_eq =>
    obtain ⟨results, metrics, halone, hresults⟩ := h.alone_eq
    refine ⟨results, metrics, by rw [hgrowth, hstore, halone], ?_⟩
    rw [hgrowth, ← hresults]
    refine List.map_congr_left fun k hk => ?_
    obtain ⟨version, hversion⟩ := (h.mem_growth k).1 hk
    rw [hversion, hresult, hversion]

/-- The last place of a list is that of the last entry, and the others are as before. -/
theorem getElem?_concat_eq_some {α : Type} {xs : List α} {a b : α} {n : Nat} :
    (xs ++ [a])[n]? = some b ↔ xs[n]? = some b ∨ n = xs.length ∧ a = b := by
  rcases Nat.lt_trichotomy n xs.length with hlt | rfl | hgt
  · rw [List.getElem?_append_left hlt]
    simp [Nat.ne_of_lt hlt]
  · simp
  · have hle : xs.length ≤ n := Nat.le_of_lt hgt
    simp [List.getElem?_append_right hle, List.getElem?_eq_none hle, Nat.ne_of_gt hgt,
      Nat.sub_ne_zero_of_lt hgt]

section Append

variable {pool' : Pool ι} {k : ι} {e : Event}

theorem Appended.result_of_ne (h : Appended calls pool pool' k e) {j : ι} (hj : j ≠ k) :
    pool'.result j = pool.result j := by
  rw [Pool.result, h.programs j hj, Pool.result]

theorem Appended.stream (h : Appended calls pool pool' k e) (id : Id) :
    pool'.store.stream id.identity = pool.store.stream id.identity ++
      if id = (calls k).id then
        [(calls k).envelope (pool.store.stream (calls k).id.identity).length e] else [] := by
  rw [h.store, Store.stream_append]
  by_cases hid : id = (calls k).id
  · rw [if_pos (AggregateId.identity_inj.2 hid), if_pos hid, hid]
  · rw [if_neg (AggregateId.identity_inj.not.2 hid), if_neg hid, List.append_nil]

theorem Appended.onOrder (h : Appended calls pool pool' k e) (id : Id) :
    onOrder calls pool' id = onOrder calls pool id ++ if id = (calls k).id then [k] else [] := by
  rw [Pool.onOrder, h.growth, List.filter_append, Pool.onOrder]
  by_cases hid : id = (calls k).id
  · rw [if_pos hid, List.filter_cons_of_pos (by simp [hid]), List.filter_nil]
  · rw [if_neg hid, List.filter_cons_of_neg (by simpa using Ne.symm hid), List.filter_nil]

/-- A call appends once only. -/
theorem Appended.not_mem (happended : Appended calls pool pool' k e) (h : Sound calls pool) :
    k ∉ pool.growth := by
  intro hmem
  obtain ⟨version, hversion⟩ := (h.mem_growth k).1 hmem
  rw [happended.pending] at hversion
  cases hversion

/-- The calls that appended before have returned what they have returned. -/
theorem Appended.result_of_mem (happended : Appended calls pool pool' k e) (h : Sound calls pool)
    {j : ι} (hj : j ∈ pool.growth) : pool'.result j = pool.result j :=
  happended.result_of_ne fun heq => happended.not_mem h (heq ▸ hj)

theorem Appended.placed (happended : Appended calls pool pool' k e) (h : Sound calls pool)
    {id : Id} {n : Nat} {j : ι} (hj : (Pool.onOrder calls pool' id)[n]? = some j) :
    pool'.result j = some (.ok (n + 1)) ∧
      ∃ e, (pool'.store.stream id.identity)[n]? = some ((calls j).envelope n e) := by
  rw [happended.onOrder] at hj
  rw [happended.stream]
  by_cases hid : id = (calls k).id
  · rw [if_pos hid] at hj ⊢
    rcases getElem?_concat_eq_some.1 hj with hold | ⟨rfl, rfl⟩
    · obtain ⟨hresult, x, hx⟩ := h.placed id n j hold
      rw [happended.result_of_mem h (List.mem_of_mem_filter (List.mem_of_getElem? hold))]
      exact ⟨hresult, x, getElem?_concat_eq_some.2 (Or.inl hx)⟩
    · -- the new event stands at the end of the stream
      rw [← h.length_stream, happended.result, hid]
      exact ⟨rfl, e, getElem?_concat_eq_some.2 (Or.inr ⟨rfl, rfl⟩)⟩
  · rw [if_neg hid, List.append_nil] at hj ⊢
    obtain ⟨hresult, x, hx⟩ := h.placed id n j hj
    rw [happended.result_of_mem h (List.mem_of_mem_filter (List.mem_of_getElem? hj))]
    exact ⟨hresult, x, hx⟩

/-- An append of the event that a call has decided keeps the invariant. -/
theorem Sound.of_append (h : Sound calls pool) {events : List Event}
    (hprepared : (calls k).Prepared (pool.store.stream (calls k).id.identity) events e)
    (happended : Appended calls pool pool' k e) : Sound calls pool' := by
  constructor
  case records =>
    intro id
    obtain ⟨history, hrecords⟩ := h.records id
    rw [happended.stream]
    by_cases hid : id = (calls k).id
    · rw [if_pos hid, hid]
      exact ⟨_, hprepared.records_append⟩
    · rw [if_neg hid, List.append_nil]
      exact ⟨history, hrecords⟩
  case phase =>
    -- for the others the stream may have grown, but what they build on is still in front
    intro j
    by_cases hj : j = k
    · rw [hj, Program.eq_done_of_result? happended.result]
      exact .succeeded _
    · rw [happended.programs j hj]
      refine (h.phase j).mono ?_
      rw [happended.stream]
      exact List.prefix_append _ _
  case nodup =>
    rw [happended.growth]
    exact List.nodup_append.2 ⟨h.nodup, List.nodup_singleton k,
      fun j hj i hi heq => happended.not_mem h (List.mem_singleton.1 hi ▸ heq ▸ hj)⟩
  case mem_growth =>
    intro j
    rw [happended.growth, List.mem_append, List.mem_singleton]
    by_cases hj : j = k
    · rw [hj, happended.result]
      exact ⟨fun _ => ⟨_, rfl⟩, fun _ => Or.inr rfl⟩
    · rw [happended.result_of_ne hj, ← h.mem_growth]
      exact ⟨fun hmem => hmem.resolve_right hj, Or.inl⟩
  case length_stream =>
    intro id
    rw [happended.stream, happended.onOrder, List.length_append, List.length_append,
      h.length_stream]
    split <;> rfl
  case placed => exact fun id n j hj => happended.placed h hj
  case alone_eq =>
    -- run alone behind the others, the call finds the stream that its event was decided on
    obtain ⟨results, metrics, halone, hresults⟩ := h.alone_eq
    obtain ⟨metrics', hk⟩ := hprepared.handle_of_current rfl metrics
    refine ⟨_, metrics', by rw [happended.growth, alone_concat halone hk, happended.store], ?_⟩
    rw [happended.growth, List.map_append, List.map_append, ← hresults,
      List.map_congr_left fun j hj => happended.result_of_mem h hj]
    exact congrArg (pool.growth.map pool.result ++ [·]) happended.result

end Append

/-- Every run is sound. -/
theorem sound_run [DecidableEq ι] (calls : ι → Call) (schedule : List ι) :
    Sound calls (run calls schedule) := by
  unfold run
  -- the invariant is carried from any sound pool, not from the start alone
  generalize hpool : start calls = pool
  have h : Sound calls pool := hpool ▸ sound_start calls
  clear hpool
  induction schedule generalizing pool with
  | nil => exact h
  | cons k rest ih =>
    refine ih (pool.step k) ?_
    rcases step_cases h k with
      ⟨hstore, hgrowth, hquiet⟩ | ⟨events, e, hprepared, happended⟩
    · exact h.of_quiet hstore hgrowth hquiet
    · exact h.of_append hprepared happended

/-- Interleaved calls of the order service are serializable. Whatever the calls and the order of
their accesses to a store that starts empty:

* the calls that make the store grow are the ones that succeed, each once, and the stream of an
  order has one event for each of them, in order;
* on each order they return the versions from one up to the length of the stream;
* run alone, one after another in this order, they return the same and leave the same store;
* every other call that is done was rejected, or found no order, or met a conflict. -/
theorem handle_serializable [DecidableEq ι] (calls : ι → Call) (schedule : List ι) :
    let pool := run calls schedule
    pool.growth.Nodup ∧
    (∀ k, k ∈ pool.growth ↔ ∃ version, pool.result k = some (.ok version)) ∧
    (∀ id : Id, (pool.store.stream id.identity).length = (onOrder calls pool id).length ∧
      ∀ n k, (onOrder calls pool id)[n]? = some k →
        pool.result k = some (.ok (n + 1)) ∧
        ∃ e, (pool.store.stream id.identity)[n]? = some ((calls k).envelope n e)) ∧
    (∃ results metrics, alone calls pool.growth = (results, (pool.store, metrics)) ∧
      pool.growth.map pool.result = results.map some) ∧
    ∀ k failure, pool.result k = some (.error failure) → failure.IsExpected := by
  have h := sound_run calls schedule
  refine ⟨h.nodup, h.mem_growth, fun id => ⟨h.length_stream id, h.placed id⟩, h.alone_eq, ?_⟩
  exact fun k failure hresult => (h.phase k).isExpected hresult

/-- Two creations of one order that both ask before either of them saves: one is too late. -/
example :
    let now : Timestamp := ⟨⟨1970, 1, 1, by decide, by decide⟩, 0, 0, by decide, by decide⟩
    let create : Call := ⟨⟨Uuid.nil⟩, .create ⟨Uuid.nil⟩ [⟨Uuid.nil, 1⟩], Uuid.nil,
      ⟨now, fun _ => ⟨Uuid.nil, now⟩⟩⟩
    let pool := run (fun _ : Bool => create) [true, false, true, false]
    pool.result true = some (.ok 1) ∧
      ∃ text, pool.result false = some (.error (.kernel (.conflict text 0 1))) :=
  ⟨rfl, _, rfl⟩

end Pool

end Order

end EventSourcing
