import EventSourcing.Proofs.Interleaving

/-!
# Isolation of identities

Every identity has a stream of its own: what is done under one identity is not seen under another,
be it that the kinds differ or the numbers. A save reads and writes the stream of its root alone.

* `Store.AgreeAt` says that two stores cannot be told apart under an identity.
* `Store.agreeAt_save` is what a save leaves as it is, `Store.save_congr` what it depends on;
  `Store.save_comm` follows from both.
* `Program.Confined` says that a program keeps to one identity, whatever the store answers.
  `Confined.agreeAt_step` and `Confined.step_congr` are the same two facts for each of its steps,
  and `Shared.run_agree` carries them over every schedule of any number of clients.
* `Shared.identities_isolated` sums up.
-/

namespace EventSourcing

namespace Store

variable {A B : Aggregate} {i j : Identity} {s t u : Store}

/-! ## What is seen under an identity -/

/-- Nothing that is asked under an identity tells two stores apart. -/
structure AgreeAt (s t : Store) (i : Identity) : Prop where
  stream? : s.stream? i = t.stream? i
  stream : s.stream i = t.stream i
  currentVersion : s.currentVersion i = t.currentVersion i
  contains : s.contains i = t.contains i
  load : ∀ (A : Aggregate) (id : A.Id), id.identity = i → s.load A id = t.load A id

/-- Everything that is asked under an identity is answered from its stream. -/
theorem AgreeAt.of_stream? (h : s.stream? i = t.stream? i) : s.AgreeAt t i := by
  have hstream : s.stream i = t.stream i := congrArg (fun found => found.getD []) h
  have hversion : s.currentVersion i = t.currentVersion i := congrArg List.length hstream
  refine ⟨h, hstream, hversion, ?_, ?_⟩
  · rw [Store.contains, hversion, Store.contains]
  · rintro A id rfl
    rw [Store.load, hstream, Store.load]

theorem AgreeAt.refl (s : Store) (i : Identity) : s.AgreeAt s i := .of_stream? rfl

theorem AgreeAt.symm (h : s.AgreeAt t i) : t.AgreeAt s i := .of_stream? h.stream?.symm

theorem AgreeAt.trans (h : s.AgreeAt t i) (h' : t.AgreeAt u i) : s.AgreeAt u i :=
  .of_stream? (h.stream?.trans h'.stream?)

theorem stream?_append (store : Store) (i j : Identity) (added : List Stored) :
    (store.append i added).stream? j =
      if j = i then some (store.stream i ++ added) else store.stream? j :=
  lookup_appendTo i j added store.streams

theorem AgreeAt.append (h : s.AgreeAt t i) (added : List Stored) :
    (s.append i added).AgreeAt (t.append i added) i := by
  apply AgreeAt.of_stream?
  rw [stream?_append, stream?_append, if_pos rfl, if_pos rfl, h.stream]

/-! ## Saves -/

/-- A save changes nothing under other identities. -/
theorem agreeAt_save (store : Store) (root : Root A) (correlation : Uuid) (stamp : Nat → Stamp)
    (hi : i ≠ root.identity) : (store.save root correlation stamp).store.AgreeAt store i := by
  rcases save_cases store root correlation stamp with
    ⟨hstore, -, -⟩ | ⟨envelopes, -, -, -, -, hsave⟩
  · rw [hstore]
    exact .refl store i
  · apply AgreeAt.of_stream?
    rw [hsave, stream?_append, if_neg hi]

/-- A save depends on nothing but the stream of its root. -/
theorem save_congr {root : Root A} (h : s.AgreeAt t root.identity) (correlation : Uuid)
    (stamp : Nat → Stamp) :
    let x := s.save root correlation stamp
    let y := t.save root correlation stamp
    x.result = y.result ∧ x.root = y.root ∧ x.measured = y.measured ∧
      x.store.AgreeAt y.store root.identity := by
  intro x y
  -- in the order in which a save checks
  cases hcorrupted : root.corrupted with
  | true =>
    simp only [x, y, save_of_corrupted hcorrupted]
    exact ⟨trivial, trivial, trivial, h⟩
  | false =>
    by_cases hbuffer : root.uncommitted = []
    · simp only [x, y, save_of_uncommitted_eq_nil hcorrupted hbuffer, h.currentVersion]
      exact ⟨trivial, trivial, trivial, h⟩
    · by_cases hversion : root.committed = t.currentVersion root.identity
      · have hversion' : root.committed = s.currentVersion root.identity :=
          hversion.trans h.currentVersion.symm
        simp only [x, y, save_of_current hcorrupted hbuffer hversion,
          save_of_current hcorrupted hbuffer hversion']
        cases encodeFrom root.id correlation stamp root.committed root.uncommitted with
        | error fault => exact ⟨rfl, rfl, rfl, h⟩
        | ok envelopes => exact ⟨rfl, rfl, rfl, h.append envelopes⟩
      · have hversion' : root.committed ≠ s.currentVersion root.identity := by
          rw [h.currentVersion]
          exact hversion
        simp only [x, y, save_of_stale hcorrupted hbuffer hversion,
          save_of_stale hcorrupted hbuffer hversion', h.currentVersion]
        exact ⟨trivial, trivial, trivial, h⟩

/-- A save leaves a root under its identifier. -/
theorem save_root_id (store : Store) (root : Root A) (correlation : Uuid) (stamp : Nat → Stamp) :
    (store.save root correlation stamp).root.id = root.id := by
  rcases save_cases store root correlation stamp with
    ⟨-, hroot, -⟩ | ⟨envelopes, -, -, -, -, hsave⟩
  · rw [hroot]
  · rw [hsave]
    rfl

/-- Saves under two identities come to the same in either order. -/
theorem save_comm (store : Store) {r : Root A} {q : Root B} (hne : r.identity ≠ q.identity)
    (correlation correlation' : Uuid) (stamp stamp' : Nat → Stamp) :
    let r₁ := store.save r correlation stamp
    let q₁ := r₁.store.save q correlation' stamp'
    let q₂ := store.save q correlation' stamp'
    let r₂ := q₂.store.save r correlation stamp
    (r₁.result = r₂.result ∧ r₁.root = r₂.root ∧ r₁.measured = r₂.measured) ∧
    (q₁.result = q₂.result ∧ q₁.root = q₂.root ∧ q₁.measured = q₂.measured) ∧
    ∀ i, q₁.store.AgreeAt r₂.store i := by
  intro r₁ q₁ q₂ r₂
  -- either save meets its own stream as it was before the other
  obtain ⟨hresult, hroot, hmeasured, hr⟩ :=
    save_congr (agreeAt_save store q correlation' stamp' hne).symm correlation stamp
  obtain ⟨hresult', hroot', hmeasured', hq⟩ :=
    save_congr (agreeAt_save store r correlation stamp hne.symm) correlation' stamp'
  refine ⟨⟨hresult, hroot, hmeasured⟩, ⟨hresult', hroot', hmeasured'⟩, fun i => ?_⟩
  have hlast (hi : i ≠ q.identity) : q₁.store.AgreeAt r₁.store i := agreeAt_save _ _ _ _ hi
  have hlast' (hi : i ≠ r.identity) : r₂.store.AgreeAt q₂.store i := agreeAt_save _ _ _ _ hi
  by_cases hi : i = r.identity
  · subst hi
    exact (hlast hne).trans hr
  · by_cases hi' : i = q.identity
    · subst hi'
      exact hq.trans (hlast' hi).symm
    · have hfirst : r₁.store.AgreeAt store i := agreeAt_save _ _ _ _ hi
      have hfirst' : q₂.store.AgreeAt store i := agreeAt_save _ _ _ _ hi'
      exact ((hlast hi').trans hfirst).trans ((hlast' hi).trans hfirst').symm

end Store

/-! ## Programs that keep to an identity -/

namespace Program

variable {A : Aggregate} {α : Type} {i j : Identity}

/-- All accesses of a program are under one identity, whatever a store answers: a root that is
loaded has the identifier that was asked for, and a save leaves the identifier of its root. -/
inductive Confined (i : Identity) : Program A α → Prop
  | done (result : α) : Confined i (.done result)
  | version {next : Except A.Fault Nat → Program A α} (h : ∀ answer, Confined i (next answer)) :
      Confined i (.version i next)
  | load {id : A.Id} {next : Except A.Fault (Root A) → Program A α} (hid : id.identity = i)
      (hroot : ∀ root, root.id = id → Confined i (next (.ok root)))
      (hfault : ∀ fault, Confined i (next (.error fault))) : Confined i (.load id next)
  | save {root : Root A} {correlation : Uuid} {stamp : Nat → Stamp}
      {next : Except A.Fault Nat × Root A → Program A α} (hroot : root.identity = i)
      (h : ∀ result after, after.id = root.id → Confined i (next (result, after))) :
      Confined i (.save root correlation stamp next)

namespace Confined

variable {p : Program A α}

theorem step (h : p.Confined i) (store : Store) (metrics : Metrics) :
    (p.step (store, metrics)).1.Confined i := by
  cases h with
  | done result => exact .done result
  | version h => exact h _
  | @load id next hid hroot hfault =>
    show (next (store.load A id)).Confined i
    cases hload : store.load A id with
    | error fault => exact hfault fault
    | ok root =>
      obtain ⟨-, events, -, rfl⟩ := Store.load_eq_ok_iff.1 hload
      exact hroot _ rfl
  | save hroot h =>
    rw [step_save]
    exact h _ _ (Store.save_root_id ..)

/-- A step changes nothing under other identities. -/
theorem agreeAt_step (h : p.Confined i) (store : Store) (metrics : Metrics) (hj : j ≠ i) :
    (p.step (store, metrics)).2.1.AgreeAt store j := by
  cases h with
  | done | version | load => exact .refl store j
  | save hroot h =>
    subst hroot
    rw [step_save]
    exact Store.agreeAt_save _ _ _ _ hj

/-- A step depends on nothing but the stream of the identity. -/
theorem step_congr (h : p.Confined i) {s t : Store} (hst : s.AgreeAt t i)
    (metrics metrics' : Metrics) :
    (p.step (s, metrics)).1 = (p.step (t, metrics')).1 ∧
      (p.step (s, metrics)).2.1.AgreeAt (p.step (t, metrics')).2.1 i := by
  cases h with
  | done => exact ⟨rfl, hst⟩
  | @version next h =>
    have hanswer : next (.ok (s.currentVersion i)) = next (.ok (t.currentVersion i)) := by
      rw [hst.currentVersion]
    exact ⟨hanswer, hst⟩
  | @load id next hid hroot hfault =>
    have hanswer : next (s.load A id) = next (t.load A id) := by rw [hst.load A id hid]
    exact ⟨hanswer, hst⟩
  | @save root correlation stamp next hroot h =>
    subst hroot
    obtain ⟨hresult, hafter, -, hstore⟩ := Store.save_congr hst correlation stamp
    rw [step_save, step_save, hresult, hafter]
    exact ⟨rfl, hstore⟩

end Confined

end Program

/-! ## Clients of one store -/

/-- A user of a store: its kind of aggregate, and what is left of what it does. -/
structure Client where
  aggregate : Aggregate
  Result : Type
  program : Program aggregate Result

/-- The next access of a client. -/
def Client.step (c : Client) (state : Store × Metrics) : Client × Store × Metrics :=
  let (program, state) := c.program.step state
  (⟨c.aggregate, c.Result, program⟩, state)

/-- Clients of one store, and what is stored and counted. -/
structure Shared (ι : Type) where
  store : Store
  metrics : Metrics
  clients : ι → Client

namespace Shared

variable {ι : Type} [DecidableEq ι]

/-- One client makes its next access to the store. -/
def step (s : Shared ι) (k : ι) : Shared ι :=
  let (client, store, metrics) := (s.clients k).step (s.store, s.metrics)
  { store := store
    metrics := metrics
    clients := Function.update s.clients k client }

/-- The clients after the accesses of a schedule. -/
def run (s : Shared ι) (schedule : List ι) : Shared ι :=
  schedule.foldl step s

theorem clients_step_self (s : Shared ι) (k : ι) :
    (s.step k).clients k = ((s.clients k).step (s.store, s.metrics)).1 :=
  Function.update_self ..

theorem clients_step_of_ne (s : Shared ι) {j k : ι} (h : j ≠ k) :
    (s.step k).clients j = s.clients j :=
  Function.update_of_ne h ..

/-- Every client keeps to an identity, which others may keep to as well. -/
def Confined (s : Shared ι) (home : ι → Identity) : Prop :=
  ∀ k, (s.clients k).program.Confined (home k)

/-- Under an identity, neither the store nor a client tells two states apart. -/
structure Agree (home : ι → Identity) (i : Identity) (s t : Shared ι) : Prop where
  store : s.store.AgreeAt t.store i
  clients : ∀ k, home k = i → s.clients k = t.clients k

variable {home : ι → Identity} {i : Identity} {s t : Shared ι}

theorem Confined.step (h : s.Confined home) (k : ι) : (s.step k).Confined home := by
  intro j
  by_cases hj : j = k
  · subst hj
    rw [clients_step_self]
    exact (h j).step s.store s.metrics
  · rw [clients_step_of_ne s hj]
    exact h j

/-- A step under another identity is not seen. -/
theorem Agree.step_left (hs : s.Confined home) (h : Agree home i s t) {k : ι} (hk : home k ≠ i) :
    Agree home i (s.step k) t where
  store := ((hs k).agreeAt_step s.store s.metrics (Ne.symm hk)).trans h.store
  clients j hj := by
    have hne : j ≠ k := by
      rintro rfl
      exact hk hj
    rw [clients_step_of_ne s hne]
    exact h.clients j hj

/-- A step under the identity itself comes to the same in both. -/
theorem Agree.step (hs : s.Confined home) (h : Agree home i s t) {k : ι} (hk : home k = i) :
    Agree home i (s.step k) (t.step k) := by
  subst hk
  have hclient : s.clients k = t.clients k := h.clients k rfl
  obtain ⟨hprogram, hstore⟩ := (hs k).step_congr h.store s.metrics t.metrics
  have hstep : ((s.clients k).step (s.store, s.metrics)).1
      = ((t.clients k).step (t.store, t.metrics)).1 := by
    rw [← hclient]
    exact congrArg (Client.mk _ _) hprogram
  constructor
  case store =>
    show (((s.clients k).program.step (s.store, s.metrics)).2.1).AgreeAt
      ((t.clients k).program.step (t.store, t.metrics)).2.1 (home k)
    rw [← hclient]
    exact hstore
  case clients =>
    intro j hj
    by_cases hjk : j = k
    · subst hjk
      rw [clients_step_self, clients_step_self, hstep]
    · rw [clients_step_of_ne s hjk, clients_step_of_ne t hjk]
      exact h.clients j hj

/-- Whatever the schedule, what is seen under an identity comes from the steps under it alone. -/
theorem run_agree (hs : s.Confined home) (ht : t.Confined home) (h : Agree home i s t)
    (schedule : List ι) :
    Agree home i (s.run schedule) (t.run (schedule.filter fun k => home k = i)) := by
  induction schedule generalizing s t with
  | nil => exact h
  | cons k rest ih =>
    by_cases hk : home k = i
    · rw [List.filter_cons_of_pos (by simpa using hk)]
      exact ih (hs.step k) (ht.step k) (h.step hs hk)
    · rw [List.filter_cons_of_neg (by simpa using hk)]
      exact ih (hs.step k) ht (h.step_left hs hk)

/-- Schedules with the same steps under an identity, in the same order, come to the same there. -/
theorem run_agree_of_filter_eq (hs : s.Confined home) {schedule schedule' : List ι}
    (h : schedule.filter (fun k => home k = i) = schedule'.filter fun k => home k = i) :
    Agree home i (s.run schedule) (s.run schedule') := by
  have hself : Agree home i s s := ⟨.refl s.store i, fun _ _ => rfl⟩
  have hrun := run_agree hs hs hself schedule
  have hrun' := run_agree hs hs hself schedule'
  rw [h] at hrun
  exact ⟨hrun.store.trans hrun'.store.symm,
    fun k hk => (hrun.clients k hk).trans (hrun'.clients k hk).symm⟩

/-- Where no client of an identity makes a step, nothing changes under it. -/
theorem run_agree_of_forall_ne (hs : s.Confined home) {schedule : List ι}
    (h : ∀ k ∈ schedule, home k ≠ i) : Agree home i (s.run schedule) s := by
  have hnone : schedule.filter (fun k => home k = i) = [].filter fun k => home k = i :=
    List.filter_eq_nil_iff.2 fun k hk => by simpa using h k hk
  exact run_agree_of_filter_eq hs hnone

end Shared

/-! ## The order service keeps to orders -/

namespace Order

namespace Call

theorem confined_carryOut (c : Call) {root : Root aggregate} (hid : root.id = c.id) :
    (c.carryOut Program.access root).Confined c.id.identity := by
  rcases hexecute : root.execute c.readings.now c.command with ⟨r | n, after⟩
  · rw [carryOut_of_rejected hexecute]
    exact .done _
  · rw [carryOut_of_accepted hexecute]
    have hafter : after.id = c.id := by
      rw [← hid, ← root.execute_id c.readings.now c.command, hexecute]
    refine .save (congrArg AggregateId.identity hafter) fun result root' _ => ?_
    cases result <;> exact .done _

/-- A call makes all its accesses under the identity of its order. -/
theorem confined_handle (c : Call) : (c.handle Program.access).Confined c.id.identity := by
  have hopened : (Program.load c.id c.opened).Confined c.id.identity :=
    .load rfl (fun root hid => c.confined_carryOut hid) fun fault => .done _
  rw [handle_eq]
  split
  · refine .version fun answer => ?_
    cases answer with
    | error fault => exact .done _
    | ok version =>
      rw [asked]
      split
      · exact hopened
      · exact c.confined_carryOut rfl
  · exact hopened

end Call

end Order

namespace Shared

/-- Identities are isolated from one another, be it by their kinds or by their numbers.

* Two saves under different identities come to the same results, roots and streams in either order.
* A save changes nothing under any other identity.
* However the accesses of any number of clients are interleaved, nothing changes under an identity
  of which no client takes part. What is stored and found under an identity, and what its clients
  are answered, depends on the order of their own accesses alone. -/
theorem identities_isolated :
    (∀ (store : Store) {A B : Aggregate} (r : Root A) (q : Root B),
      A.idKind.tag ≠ B.idKind.tag ∨ r.id.uuid ≠ q.id.uuid →
      ∀ (correlation correlation' : Uuid) (stamp stamp' : Nat → Stamp),
      let r₁ := store.save r correlation stamp
      let q₁ := r₁.store.save q correlation' stamp'
      let q₂ := store.save q correlation' stamp'
      let r₂ := q₂.store.save r correlation stamp
      (r₁.result = r₂.result ∧ r₁.root = r₂.root) ∧ (q₁.result = q₂.result ∧ q₁.root = q₂.root) ∧
        ∀ i, q₁.store.stream? i = r₂.store.stream? i) ∧
    (∀ (store : Store) {A : Aggregate} (root : Root A) (correlation : Uuid) (stamp : Nat → Stamp)
      (i : Identity), i ≠ root.identity →
      (store.save root correlation stamp).store.AgreeAt store i) ∧
    ∀ {ι : Type} [DecidableEq ι] (s : Shared ι) (home : ι → Identity), s.Confined home →
      ∀ (i : Identity) (schedule : List ι),
        ((∀ k ∈ schedule, home k ≠ i) → Agree home i (s.run schedule) s) ∧
        ∀ schedule' : List ι,
          schedule.filter (fun k => home k = i) = schedule'.filter (fun k => home k = i) →
          Agree home i (s.run schedule) (s.run schedule') := by
  refine ⟨fun store A B r q hne correlation correlation' stamp stamp' => ?_, ?_, ?_⟩
  · have hidentity : r.identity ≠ q.identity := by
      intro heq
      obtain ⟨hkind, huuid⟩ := Identity.mk.inj heq
      exact hne.elim (fun h => h hkind) fun h => h huuid
    obtain ⟨⟨hresult, hroot, -⟩, ⟨hresult', hroot', -⟩, hstreams⟩ :=
      Store.save_comm store hidentity correlation correlation' stamp stamp'
    exact ⟨⟨hresult, hroot⟩, ⟨hresult', hroot'⟩, fun i => (hstreams i).stream?⟩
  · exact fun store A root correlation stamp i hi => Store.agreeAt_save store root _ _ hi
  · intro ι _ s home hs i schedule
    exact ⟨run_agree_of_forall_ne hs, fun schedule' h => run_agree_of_filter_eq hs h⟩

/-- Parcels: another kind of aggregate over the same numbers as orders. -/
def parcel : Aggregate :=
  { Order.aggregate with name := "parcel", idKind := ⟨"parcel", "ParcelId"⟩ }

/-- An order and a parcel of one number are both new, and are saved in either order. Then two orders
are created at once, and neither creation notices the other. -/
theorem identities_isolated_interleaved :
    let now : Timestamp := ⟨⟨1970, 1, 1, by decide, by decide⟩, 0, 0, by decide, by decide⟩
    let stamp : Nat → Stamp := fun _ => ⟨Uuid.nil, now⟩
    let created : Order.Event := .created ⟨Uuid.nil⟩ [] now
    let r : Root Order.aggregate := ((Root.new ⟨Uuid.nil⟩).record created).2
    let q : Root parcel := ((Root.new ⟨Uuid.nil⟩).record created).2
    let rq := (Store.empty.save r Uuid.nil stamp).store.save q Uuid.nil stamp
    let qr := (Store.empty.save q Uuid.nil stamp).store.save r Uuid.nil stamp
    let create : Order.Command := .create ⟨Uuid.nil⟩ [⟨Uuid.nil, 1⟩]
    let call : Bool → Order.Call := fun k =>
      ⟨⟨if k then Uuid.nil else Uuid.ofNat 1⟩, create, Uuid.nil, ⟨now, stamp⟩⟩
    let home : Bool → Identity := fun k => (call k).id.identity
    let s : Shared Bool :=
      ⟨.empty, .empty, fun k => ⟨Order.aggregate, _, (call k).handle Program.access⟩⟩
    (rq.result = .ok 1 ∧ qr.result = .ok 1 ∧ ∀ i, rq.store.stream? i = qr.store.stream? i) ∧
    s.Confined home ∧
    (s.run [true, true]).store.currentVersion (home true) = 1 ∧
    (s.run [true, false, false, true]).store.currentVersion (home true) = 1 ∧
    (s.run [true, false, false]).store.currentVersion (home true) = 0 := by
  intro now stamp created r q rq qr create call home s
  obtain ⟨hsaves, -, hruns⟩ := identities_isolated
  obtain ⟨-, ⟨hresult, -⟩, hstreams⟩ :=
    hsaves Store.empty r q (Or.inl (by decide)) Uuid.nil Uuid.nil stamp stamp
  have hconfined : s.Confined home := fun k => (call k).confined_handle
  have halone : (s.run [true, true]).store.currentVersion (home true) = 1 := rfl
  have hboth := (hruns s home hconfined (home true) [true, false, false, true]).2 [true, true] rfl
  have hother := (hruns s home hconfined (home true) [true, false, false]).2 [true] rfl
  refine ⟨⟨hresult.trans rfl, rfl, hstreams⟩, hconfined, halone, ?_, ?_⟩
  · rw [hboth.store.currentVersion]
    exact halone
  · rw [hother.store.currentVersion]
    rfl

end Shared

end EventSourcing
