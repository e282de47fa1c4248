import EventSourcing.Proofs.Isolation
import EventSourcing.Proofs.Representation

/-!
# Saves that fail

A save checks four things in a fixed order, the last of them while it is already encoding. Whichever
fails, nothing has happened: the store and the root are as before. Otherwise everything that the
root had recorded stands behind its stream, and nothing else has changed.

* `Store.encodeFrom_eq_codec_iff`: an event without a text spoils the encoding, wherever it stands.
* `Store.Answers` says which answer a save gives; `Store.answers_save` proves it.
* `Workspace.stream_prefix_of_run` is what that means for a stream in the long run.
* `Workspace.save_all_or_nothing` sums up.
-/

namespace EventSourcing

namespace Store

variable {A : Aggregate} {store : Store} {root : Root A} {correlation : Uuid}
  {stamp : Nat → Stamp}

/-! ## The answer of a save -/

/-- The encoding of events fails exactly if one of them has no stored text. -/
theorem encodeFrom_eq_codec_iff {id : A.Id} {version : Nat} {events : List A.Event} :
    encodeFrom id correlation stamp version events = .error .codec ↔
      ∃ event ∈ events, A.schema.write event = none := by
  induction events generalizing version with
  | nil => simp [encodeFrom]
  | cons event rest ih =>
    rw [encodeFrom, Envelope.encode, List.exists_mem_cons_iff, ← @ih (version + 1)]
    cases hwrite : A.schema.write event with
    | none => simp [Envelope.new, hwrite, bind, Except.bind]
    | some text =>
      cases encodeFrom id correlation stamp (version + 1) rest <;>
        simp [Envelope.new, hwrite, bind, Except.bind, pure, Except.pure]

/-- Which answer a save gives. The conditions exclude one another and leave no case out; every one
is met only when the ones before it are not. -/
structure Answers (store : Store) (root : Root A) (result : Except A.Fault Nat) : Prop where
  corrupted : ∀ text, result = .error (.corrupted text) ↔
    root.corrupted = true ∧ text = root.identity.text
  /-- A root without recorded events is answered by the length of its stream, even a stale one. -/
  idle : root.corrupted = false → root.uncommitted = [] →
    result = .ok (store.currentVersion root.identity)
  conflict : root.corrupted = false → root.uncommitted ≠ [] → ∀ text expected actual,
    result = .error (.conflict text expected actual) ↔
      root.committed ≠ store.currentVersion root.identity ∧ text = root.identity.text ∧
        expected = root.committed ∧ actual = store.currentVersion root.identity
  codec : root.corrupted = false → root.uncommitted ≠ [] →
    root.committed = store.currentVersion root.identity →
      (result = .error .codec ↔ ∃ event ∈ root.uncommitted, A.schema.write event = none)
  ok : root.corrupted = false → root.uncommitted ≠ [] →
    root.committed = store.currentVersion root.identity →
      (∀ event ∈ root.uncommitted, A.schema.write event ≠ none) →
        result = .ok (store.currentVersion root.identity + root.uncommitted.length)

theorem answers_save (store : Store) (root : Root A) (correlation : Uuid) (stamp : Nat → Stamp) :
    Answers store root (store.save root correlation stamp).result := by
  -- in the order in which the save checks them
  cases hcorrupted : root.corrupted with
  | true =>
    rw [save_of_corrupted hcorrupted]
    constructor <;> simp [hcorrupted, eq_comm]
  | false =>
    by_cases hbuffer : root.uncommitted = []
    · rw [save_of_uncommitted_eq_nil hcorrupted hbuffer]
      constructor <;> simp [hcorrupted, hbuffer]
    · by_cases hversion : root.committed = store.currentVersion root.identity
      · rw [save_of_current hcorrupted hbuffer hversion]
        cases hencode : encodeFrom root.id correlation stamp root.committed root.uncommitted with
        | error fault =>
          obtain rfl := encodeFrom_eq_error hencode
          have hspoilt := encodeFrom_eq_codec_iff.1 hencode
          constructor <;> simp [hcorrupted, hbuffer, hversion, hspoilt]
        | ok envelopes =>
          have hsound : ¬ ∃ event ∈ root.uncommitted, A.schema.write event = none := by
            intro hspoilt
            rw [encodeFrom_eq_codec_iff.2 hspoilt] at hencode
            cases hencode
          constructor <;> simp [hcorrupted, hbuffer, hversion, hsound]
      · rw [save_of_stale hcorrupted hbuffer hversion]
        constructor <;> simp [hcorrupted, hbuffer, hversion, eq_comm]

/-! ## What a save leaves behind -/

/-- A save that fails, or has nothing to append, leaves store and root as they are. -/
theorem save_unchanged (h : (∃ fault, (store.save root correlation stamp).result = .error fault) ∨
      root.uncommitted = []) :
    (store.save root correlation stamp).store = store ∧
      (store.save root correlation stamp).root = root := by
  rcases save_cases store root correlation stamp with
    ⟨hstore, hroot, -⟩ | ⟨envelopes, -, hbuffer, -, -, hsave⟩
  · exact ⟨hstore, hroot⟩
  · -- an append is no error, and there was something to append
    rcases h with ⟨fault, herror⟩ | hempty
    · rw [hsave] at herror
      cases herror
    · exact absurd hempty hbuffer

/-- What an append leaves behind: an envelope for each recorded event, in order and numbered on, is
put behind the stream of the root and nowhere else; the root is drained, and otherwise the same. -/
structure Appends (store : Store) (root : Root A) (correlation : Uuid) (saved : Saved A) :
    Prop where
  stream : ∃ envelopes,
    saved.store.stream root.identity = store.stream root.identity ++ envelopes ∧
    envelopes.map Envelope.sequence =
      List.range' (store.currentVersion root.identity + 1) root.uncommitted.length ∧
    List.Forall₂ (Written.Made root.identity)
      (root.uncommitted.map (Written.mk A root.id correlation)) envelopes
  others : ∀ i ≠ root.identity, saved.store.AgreeAt store i
  root : saved.root = { root with committed := root.version, uncommitted := [] }

theorem save_appends {version : Nat} (hbuffer : root.uncommitted ≠ [])
    (h : (store.save root correlation stamp).result = .ok version) :
    Appends store root correlation (store.save root correlation stamp) := by
  rcases save_cases store root correlation stamp with
    ⟨-, -, hempty⟩ | ⟨envelopes, -, -, hversion, hencode, hsave⟩
  · exact absurd (hempty version h) hbuffer
  · obtain ⟨hnumbered, hmade⟩ := made_of_encodeFrom hencode
    refine ⟨⟨envelopes, ?_, ?_, hmade⟩, fun i => agreeAt_save store root correlation stamp, ?_⟩
    · rw [hsave]
      exact stream_append_self store root.identity envelopes
    · rw [hnumbered, hversion, length_of_encodeFrom hencode]
    · rw [hsave]
      rfl

end Store

/-! ## Runs -/

namespace Workspace

/-- No step shortens or changes what is stored under an identity. -/
theorem stream_prefix_of_step {w w' : Workspace} (h : Step w w') (i : Identity) :
    w.store.stream i <+: w'.store.stream i := by
  cases h with
  | save hk correlation stamp => exact Store.stream_prefix_save _ _ _ _ i
  | _ => exact List.prefix_rfl

theorem stream_prefix_of_run {w w' : Workspace} (h : Relation.ReflTransGen Step w w')
    (i : Identity) : w.store.stream i <+: w'.store.stream i := by
  induction h with
  | refl => exact List.prefix_rfl
  | tail _ hstep ih => exact ih.trans (stream_prefix_of_step hstep i)

/-- A save does all or nothing, for every store and every root, however the root came about:

* which answer it gives is decided in a fixed order, and an event without a text is found at any
  place of the buffer;
* a save that fails, or has nothing to append, leaves all streams and the root as they were;
* any other appends an envelope for each recorded event and drains the root, and that is all.

So whatever is done with any roots over a store, what a stream held is a prefix of what it holds. -/
theorem save_all_or_nothing :
    (∀ (A : Aggregate) (store : Store) (root : Root A) (correlation : Uuid)
        (stamp : Nat → Stamp),
      let saved := store.save root correlation stamp
      Store.Answers store root saved.result ∧
      ((∃ fault, saved.result = .error fault) ∨ root.uncommitted = [] →
        saved.store = store ∧ saved.root = root) ∧
      ∀ version, saved.result = .ok version → root.uncommitted ≠ [] →
        Store.Appends store root correlation saved) ∧
    ∀ w w' : Workspace, Relation.ReflTransGen Step w w' →
      ∀ i, w.store.stream i <+: w'.store.stream i := by
  refine ⟨fun A store root correlation stamp => ?_, fun w w' => stream_prefix_of_run⟩
  exact ⟨Store.answers_save store root correlation stamp, Store.save_unchanged,
    fun version h hbuffer => Store.save_appends hbuffer h⟩

end Workspace

end EventSourcing
