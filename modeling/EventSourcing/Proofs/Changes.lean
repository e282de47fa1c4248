import EventSourcing.Proofs.NumberValue
import EventSourcing.Proofs.RetryRules

/-!
# The numbers of a backoff

The numbers of a backoff come in by two ways. Where one is made, a number out of range is refused;
where one is changed, it is moved into the range. Both keep to the same range, also for what is not a
number, and each change is about one part of the backoff alone.

* `Backoff.Valid` is the range, in values, and `Backoff.Refused` the number that is out of it;
  `Backoff.admits_make` and `Backoff.admits_build` say that nothing else is asked.
* `Backoff.part_changed_of_ne` and `Backoff.part_changed_congr` are one change, and
  `Backoff.part_changedAll` is a row of them: the last one of each part counts.
* `Backoff.derive` is a call on one of the backoffs at hand; `Backoff.prefix_deriveAll` says that the
  others, and the one it is made on, stay.
* `Backoff.valid_and_independent` sums up.
-/

namespace EventSourcing

namespace Retry

namespace Backoff

variable {b b' : Backoff} {maxAttempts : UInt32} {baseDelay maxDelay : Duration}
  {multiplier jitterFraction : Binary64} {jitter : JitterSource} {e : PolicyError}

/-! ## Numbers that are refused -/

/-- The numbers that a backoff may have: an attempt at least, a finite multiplier that is not below
one, and a jitter from none to all of the delay. -/
structure Valid (maxAttempts : UInt32) (multiplier jitterFraction : Binary64) : Prop where
  maxAttempts : 1 ≤ maxAttempts.toNat
  multiplier : ∃ a, multiplier.value? = some a ∧ 1 ≤ a
  jitterFraction : ∃ a, jitterFraction.value? = some a ∧ 0 ≤ a ∧ a ≤ 1

/-- Why numbers are refused: the first of them that is out of range is named. -/
inductive Refused (maxAttempts : UInt32) (multiplier jitterFraction : Binary64) :
    PolicyError → Prop
  | noAttempts (h : maxAttempts.toNat = 0) :
    Refused maxAttempts multiplier jitterFraction .noAttempts
  | multiplier (hattempts : 1 ≤ maxAttempts.toNat)
    (h : ¬ ∃ a, multiplier.value? = some a ∧ 1 ≤ a) :
    Refused maxAttempts multiplier jitterFraction (.multiplier multiplier)
  | jitterFraction (hattempts : 1 ≤ maxAttempts.toNat)
    (hmultiplier : ∃ a, multiplier.value? = some a ∧ 1 ≤ a)
    (h : ¬ ∃ a, jitterFraction.value? = some a ∧ 0 ≤ a ∧ a ≤ 1) :
    Refused maxAttempts multiplier jitterFraction (.jitterFraction jitterFraction)

theorem isMultiplier_iff : isMultiplier multiplier = true ↔
    ∃ a, multiplier.value? = some a ∧ 1 ≤ a :=
  Binary64.one_le_iff

theorem isFraction_iff : isFraction jitterFraction = true ↔
    ∃ a, jitterFraction.value? = some a ∧ 0 ≤ a ∧ a ≤ 1 :=
  Binary64.fraction_iff

theorem one_le_toNat_iff {n : UInt32} : 1 ≤ n.toNat ↔ n ≠ 0 := by
  rw [ne_eq, ← UInt32.toNat_inj, UInt32.toNat_zero]
  omega

/-- Numbers in range have values in range. -/
theorem InRange.valid (h : b.InRange) : Valid b.maxAttempts b.multiplier b.jitterFraction where
  maxAttempts := one_le_toNat_iff.2 h.maxAttempts
  multiplier := isMultiplier_iff.1 h.multiplier
  jitterFraction := isFraction_iff.1 h.jitterFraction

theorem valid_or_refused (maxAttempts : UInt32) (multiplier jitterFraction : Binary64) :
    Valid maxAttempts multiplier jitterFraction ∨
      ∃ e, Refused maxAttempts multiplier jitterFraction e := by
  rcases Nat.eq_zero_or_pos maxAttempts.toNat with hzero | hattempts
  · exact Or.inr ⟨_, .noAttempts hzero⟩
  by_cases hmultiplier : ∃ a, multiplier.value? = some a ∧ 1 ≤ a
  · by_cases hfraction : ∃ a, jitterFraction.value? = some a ∧ 0 ≤ a ∧ a ≤ 1
    · exact Or.inl ⟨hattempts, hmultiplier, hfraction⟩
    · exact Or.inr ⟨_, .jitterFraction hattempts hmultiplier hfraction⟩
  · exact Or.inr ⟨_, .multiplier hattempts hmultiplier⟩

/-- Numbers are refused exactly if they are not valid. -/
theorem exists_refused_iff : (∃ e, Refused maxAttempts multiplier jitterFraction e) ↔
    ¬ Valid maxAttempts multiplier jitterFraction := by
  constructor
  · rintro ⟨e, hrefused⟩ hvalid
    cases hrefused with
    | noAttempts hzero =>
      have hattempts := hvalid.maxAttempts
      omega
    | multiplier _ hmultiplier => exact hmultiplier hvalid.multiplier
    | jitterFraction _ _ hfraction => exact hfraction hvalid.jitterFraction
  · exact (valid_or_refused maxAttempts multiplier jitterFraction).resolve_left

/-- What numbers lead to: a backoff if they are valid, and the reason if they are refused. -/
structure Admits (maxAttempts : UInt32) (multiplier jitterFraction : Binary64) (made : Backoff)
    (result : Except PolicyError Backoff) : Prop where
  ok : ∀ b, result = .ok b ↔ Valid maxAttempts multiplier jitterFraction ∧ b = made
  error : ∀ e, result = .error e ↔ Refused maxAttempts multiplier jitterFraction e

/-- As numbers are valid or refused, it is enough to know the result in both cases. -/
theorem admits_of {made : Backoff} {result : Except PolicyError Backoff}
    (hvalid : Valid maxAttempts multiplier jitterFraction → result = .ok made)
    (hrefused : ∀ e, Refused maxAttempts multiplier jitterFraction e → result = .error e) :
    Admits maxAttempts multiplier jitterFraction made result := by
  rcases valid_or_refused maxAttempts multiplier jitterFraction with h | ⟨e, h⟩
  · have hok := hvalid h
    constructor
    · intro b
      rw [hok, Except.ok.injEq]
      exact ⟨fun heq => ⟨h, heq.symm⟩, fun heq => heq.2.symm⟩
    · intro e
      exact ⟨fun herror => absurd (hok.symm.trans herror) nofun, hrefused e⟩
  · have herror := hrefused e h
    constructor
    · intro b
      exact ⟨fun hok => absurd (hok.symm.trans herror) nofun,
        fun ⟨hnumbers, _⟩ => absurd ((hvalid hnumbers).symm.trans herror) nofun⟩
    · intro e'
      refine ⟨fun herror' => ?_, hrefused e'⟩
      rw [← Except.error.inj (herror.symm.trans herror')]
      exact h

/-- Numbers that are given make a backoff for transient errors. -/
theorem make_of_valid (h : Valid maxAttempts multiplier jitterFraction) :
    make maxAttempts baseDelay multiplier maxDelay jitterFraction jitter
      = .ok ⟨maxAttempts, baseDelay, multiplier, maxDelay, jitterFraction, .ofList [.transient],
          jitter⟩ := by
  unfold make
  rw [if_neg (one_le_toNat_iff.1 h.maxAttempts), isMultiplier_iff.2 h.multiplier,
    isFraction_iff.2 h.jitterFraction]
  rfl

theorem make_of_refused (h : Refused maxAttempts multiplier jitterFraction e) :
    make maxAttempts baseDelay multiplier maxDelay jitterFraction jitter = .error e := by
  unfold make
  cases h with
  | noAttempts hzero =>
    rw [if_pos (UInt32.toNat_inj.1 hzero)]
  | multiplier hattempts hmultiplier =>
    rw [if_neg (one_le_toNat_iff.1 hattempts),
      Bool.eq_false_iff.2 (mt isMultiplier_iff.1 hmultiplier)]
    rfl
  | jitterFraction hattempts hmultiplier hfraction =>
    rw [if_neg (one_le_toNat_iff.1 hattempts), isMultiplier_iff.2 hmultiplier,
      Bool.eq_false_iff.2 (mt isFraction_iff.1 hfraction)]
    rfl

theorem admits_make (maxAttempts : UInt32) (baseDelay : Duration) (multiplier : Binary64)
    (maxDelay : Duration) (jitterFraction : Binary64) (jitter : JitterSource) :
    Admits maxAttempts multiplier jitterFraction
      ⟨maxAttempts, baseDelay, multiplier, maxDelay, jitterFraction, .ofList [.transient], jitter⟩
      (make maxAttempts baseDelay multiplier maxDelay jitterFraction jitter) :=
  admits_of make_of_valid fun _ => make_of_refused

/-- Settings make a backoff of their numbers, for the errors that they name. -/
theorem admits_build (s : Settings) (jitter : JitterSource) :
    Admits s.maxAttempts s.multiplier s.jitterFraction
      ⟨s.maxAttempts, s.baseDelay, s.multiplier, s.maxDelay, s.jitterFraction,
        .ofList s.retryable, jitter⟩
      (s.build jitter) := by
  refine admits_of (fun hvalid => ?_) (fun e hrefused => ?_)
  · rw [Settings.build, make_of_valid hvalid]
    rfl
  · rw [Settings.build, make_of_refused hrefused]
    rfl

end Backoff

/-! ## Changes -/

/-- The parts of a backoff. -/
inductive Part where
  | maxAttempts
  | baseDelay
  | multiplier
  | maxDelay
  | jitterFraction
  | retryable
  | jitter
deriving DecidableEq

/-- What a part holds. -/
def Part.Content : Part → Type
  | maxAttempts => UInt32
  | baseDelay => Duration
  | multiplier => Binary64
  | maxDelay => Duration
  | jitterFraction => Binary64
  | retryable => KindSet
  | jitter => JitterSource

namespace Change

/-- The part that a change is about. -/
def part : Change → Part
  | maxAttempts _ => .maxAttempts
  | baseDelay _ => .baseDelay
  | multiplier _ => .multiplier
  | maxDelay _ => .maxDelay
  | jitterFraction _ => .jitterFraction
  | retryable _ => .retryable
  | jitter _ => .jitter

/-- What is given for the part, as it is. -/
def given : (c : Change) → c.part.Content
  | maxAttempts n => n
  | baseDelay d => d
  | multiplier x => x
  | maxDelay d => d
  | jitterFraction x => x
  | retryable kinds => .ofList kinds
  | jitter source => source

/-- Whether a backoff may have what is given. -/
def IsValid : Change → Prop
  | maxAttempts n => 1 ≤ n.toNat
  | multiplier x => ∃ a, x.value? = some a ∧ 1 ≤ a
  | jitterFraction x => ∃ a, x.value? = some a ∧ 0 ≤ a ∧ a ≤ 1
  | _ => True

end Change

namespace Backoff

variable {b b' : Backoff} {c c' : Change} {p : Part}

/-- What a part of a backoff holds. -/
def part (b : Backoff) : (p : Part) → p.Content
  | .maxAttempts => b.maxAttempts
  | .baseDelay => b.baseDelay
  | .multiplier => b.multiplier
  | .maxDelay => b.maxDelay
  | .jitterFraction => b.jitterFraction
  | .retryable => b.retryable
  | .jitter => b.jitter

/-- A backoff is its parts. -/
theorem ext_part (h : ∀ p, b.part p = b'.part p) : b = b' := by
  cases b
  cases b'
  simp only [mk.injEq]
  exact ⟨h .maxAttempts, h .baseDelay, h .multiplier, h .maxDelay, h .jitterFraction, h .retryable,
    h .jitter⟩

/-- A change leaves all other parts alone. -/
theorem part_changed_of_ne (b : Backoff) (h : c.part ≠ p) : (b.changed c).part p = b.part p := by
  cases c <;> cases p <;> first | rfl | exact absurd rfl h

/-- What a change makes of its part hangs on the change alone. -/
theorem part_changed_congr (b b' : Backoff) (h : c.part = p) :
    (b.changed c).part p = (b'.changed c).part p := by
  subst h
  cases c <;> rfl

/-- What is in range is taken as it is given. -/
theorem part_changed_of_isValid (b : Backoff) (h : c.IsValid) :
    (b.changed c).part c.part = c.given := by
  cases c with
  | maxAttempts n => exact if_neg (one_le_toNat_iff.1 h)
  | multiplier x =>
    obtain ⟨a, ha, hone⟩ := h
    show (if x.isFinite then x.max .one else .one) = x
    rw [if_pos (Binary64.exists_value_iff.1 ⟨a, ha⟩)]
    exact Binary64.max_eq_left ((Binary64.le_iff_value_le Binary64.value?_one ha).2 hone)
  | jitterFraction x =>
    obtain ⟨a, ha, hzero, hone⟩ := h
    show (if x.isNaN then .zero else x.clamp .zero .one) = x
    have hlow := (Binary64.le_iff_value_le Binary64.value?_zero ha).2 hzero
    have hhigh := (Binary64.le_iff_value_le ha Binary64.value?_one).2 hone
    rw [Binary64.isNaN_eq_false (Binary64.ne_nan_of_le hhigh).1]
    exact Binary64.clamp_eq_self hlow hhigh
  | _ => rfl

/-- Changes of two parts commute. -/
theorem changed_comm (b : Backoff) (h : c.part ≠ c'.part) :
    (b.changed c).changed c' = (b.changed c').changed c := by
  refine ext_part fun p => ?_
  by_cases hp : c.part = p
  · have hp' : c'.part ≠ p := fun heq => h (hp.trans heq.symm)
    rw [part_changed_of_ne _ hp', part_changed_congr b (b.changed c') hp]
  · rw [part_changed_of_ne (b.changed c') hp]
    by_cases hp' : c'.part = p
    · exact part_changed_congr _ _ hp'
    · rw [part_changed_of_ne _ hp', part_changed_of_ne _ hp, part_changed_of_ne _ hp']

/-! ### Rows of changes -/

/-- The backoff after changes in a row. -/
def changedAll (b : Backoff) (cs : List Change) : Backoff := cs.foldl changed b

/-- The last change of a part in a row. -/
def lastOf (p : Part) (cs : List Change) : Option Change :=
  (cs.filter fun c => c.part = p).getLast?

theorem changedAll_concat (b : Backoff) (cs : List Change) (c : Change) :
    b.changedAll (cs ++ [c]) = (b.changedAll cs).changed c :=
  List.foldl_concat _ _ _ _

theorem Obtainable.changedAll (h : b.Obtainable) (cs : List Change) :
    (b.changedAll cs).Obtainable := by
  induction cs using List.reverseRecOn with
  | nil => exact h
  | append_singleton cs c ih =>
    rw [changedAll_concat]
    exact ih.changed c

/-- After changes in a row a part is what the last change of it would make of it at once. -/
theorem part_changedAll (b : Backoff) (cs : List Change) (p : Part) :
    (b.changedAll cs).part p = ((lastOf p cs).elim b b.changed).part p := by
  induction cs using List.reverseRecOn with
  | nil => rfl
  | append_singleton cs c ih =>
    rw [changedAll_concat, lastOf, List.filter_append, List.filter_singleton]
    by_cases hp : c.part = p
    · rw [decide_eq_true hp, cond_true, List.getLast?_concat]
      exact part_changed_congr _ _ hp
    · rw [decide_eq_false hp, cond_false, List.append_nil, part_changed_of_ne _ hp, ih, lastOf]

/-- Nothing else counts for a part than the last change of it, and where there is none, what it was. -/
theorem part_changedAll_congr {cs cs' : List Change} (hlast : lastOf p cs = lastOf p cs')
    (hstart : lastOf p cs = none → b.part p = b'.part p) :
    (b.changedAll cs).part p = (b'.changedAll cs').part p := by
  rw [part_changedAll, part_changedAll, ← hlast]
  cases hc : lastOf p cs with
  | none => exact hstart hc
  | some c =>
    have hmem : c ∈ cs.filter fun c => c.part = p := List.mem_of_getLast? hc
    exact part_changed_congr b b' (of_decide_eq_true (List.mem_filter.1 hmem).2)

/-! ### Backoffs side by side -/

/-- The backoffs at hand after a call on one of them: the changed one joins them. -/
def derive (bs : List Backoff) (call : Nat × Change) : List Backoff :=
  match bs[call.1]? with
  | some b => bs ++ [b.changed call.2]
  | none => bs

theorem prefix_deriveAll (bs : List Backoff) (calls : List (Nat × Change)) :
    bs <+: calls.foldl derive bs := by
  induction calls generalizing bs with
  | nil => exact List.prefix_rfl
  | cons call calls ih =>
    refine List.IsPrefix.trans ?_ (ih (derive bs call))
    unfold derive
    split
    · exact List.prefix_append _ _
    · exact List.prefix_rfl

/-- The numbers of a backoff are valid however it came about, and its parts are changed apart.

* Every backoff, made from numbers or from settings or the default one, and changed any number of
  times, has valid numbers, whatever was given.
* Numbers and settings are refused exactly if a number is not valid, and the first such number is
  named; otherwise they make the backoff that has them.
* After changes in a row nothing counts for a part but the last change of it, or what it was at the
  start if there was none; a valid number is taken as it is given.
* Changes of two parts commute.
* Calls on the backoffs at hand leave each of them as it is. -/
theorem valid_and_independent :
    (∀ b : Backoff, b.Obtainable → ∀ cs, let after := b.changedAll cs
      Valid after.maxAttempts after.multiplier after.jitterFraction) ∧
    (∀ maxAttempts multiplier jitterFraction,
      (∃ e, Refused maxAttempts multiplier jitterFraction e) ↔
        ¬ Valid maxAttempts multiplier jitterFraction) ∧
    (∀ maxAttempts baseDelay multiplier maxDelay jitterFraction jitter,
      Admits maxAttempts multiplier jitterFraction
        ⟨maxAttempts, baseDelay, multiplier, maxDelay, jitterFraction, .ofList [.transient], jitter⟩
        (make maxAttempts baseDelay multiplier maxDelay jitterFraction jitter)) ∧
    (∀ (s : Settings) jitter, Admits s.maxAttempts s.multiplier s.jitterFraction
      ⟨s.maxAttempts, s.baseDelay, s.multiplier, s.maxDelay, s.jitterFraction,
        .ofList s.retryable, jitter⟩ (s.build jitter)) ∧
    (∀ (b b' : Backoff) (cs cs' : List Change) (p : Part), lastOf p cs = lastOf p cs' →
      (lastOf p cs = none → b.part p = b'.part p) →
      (b.changedAll cs).part p = (b'.changedAll cs').part p) ∧
    (∀ (b : Backoff) (c : Change), c.IsValid → (b.changed c).part c.part = c.given) ∧
    (∀ (b : Backoff) (c c' : Change), c.part ≠ c'.part →
      (b.changed c).changed c' = (b.changed c').changed c) ∧
    ∀ (bs : List Backoff) (calls : List (Nat × Change)), bs <+: calls.foldl derive bs := by
  refine ⟨fun b hb cs => (hb.changedAll cs).inRange.valid, fun _ _ _ => exists_refused_iff,
    admits_make, admits_build, ?_, fun b _ => b.part_changed_of_isValid,
    fun b _ _ => b.changed_comm, prefix_deriveAll⟩
  intro b b' cs cs' p hlast hstart
  exact part_changedAll_congr hlast hstart

end Backoff

end Retry

end EventSourcing
