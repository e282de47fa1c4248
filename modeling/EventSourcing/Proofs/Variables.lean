import EventSourcing.Proofs.Changes

/-!
# Settings from variables

Five variables are looked up one after the other. One that is absent leaves the default, one that
holds a number sets its own setting, and the first that holds none ends the lookup. So the settings
are those of the variables one by one, and an error is that of the first variable in the order which
cannot be read, whatever the later ones hold.

* `Settings.Key.read` is the number that a text holds for a setting, and `Settings.Key.get` and
  `Settings.Key.put` are the settings one by one.
* `Settings.Answers` says what a lookup may come to, and which names it asks for. What it comes to
  fits (`Settings.answers_ofLookup`) and nothing else does (`Settings.ofLookup_of_answers`).
* `Settings.variables_decide` sums up, up to the backoff that is made from the settings.
-/

namespace EventSourcing

namespace Retry

/-- What answers questions, and notes them in the order in which they are asked. -/
def noting {α β : Type} (answer : α → β) (question : α) : StateM (List α) β := do
  modify fun asked => asked ++ [question]
  return answer question

namespace Settings

/-! ## One setting -/

namespace Key

/-- The numbers that a setting holds. -/
def Number : Key → Type
  | maxAttempts => UInt32
  | baseDelayMs => UInt64
  | multiplier => Binary64
  | maxDelayMs => UInt64
  | jitterFraction => Binary64

/-- The number that a text holds for a setting, white space around it left out. -/
def read : (key : Key) → String → Except NumeralError key.Number
  | maxAttempts, value => (Text.readUnsigned UInt32.size (Text.trim value.toList)).map .ofNat
  | baseDelayMs, value => (Text.readUnsigned UInt64.size (Text.trim value.toList)).map .ofNat
  | multiplier, value => Text.readBinary64 (Text.trim value.toList)
  | maxDelayMs, value => (Text.readUnsigned UInt64.size (Text.trim value.toList)).map .ofNat
  | jitterFraction, value => Text.readBinary64 (Text.trim value.toList)

def get : (key : Key) → Settings → key.Number
  | maxAttempts, s => s.maxAttempts
  | baseDelayMs, s => s.baseDelayMs
  | multiplier, s => s.multiplier
  | maxDelayMs, s => s.maxDelayMs
  | jitterFraction, s => s.jitterFraction

def put : (key : Key) → key.Number → Settings → Settings
  | maxAttempts, n, s => { s with maxAttempts := n }
  | baseDelayMs, n, s => { s with baseDelayMs := n }
  | multiplier, x, s => { s with multiplier := x }
  | maxDelayMs, n, s => { s with maxDelayMs := n }
  | jitterFraction, x, s => { s with jitterFraction := x }

theorem get_put (key : Key) (n : key.Number) (s : Settings) : key.get (key.put n s) = n := by
  cases key <;> rfl

theorem put_get (key : Key) (s : Settings) : key.put (key.get s) s = s := by
  cases key <;> rfl

theorem get_put_of_ne {key other : Key} (h : other ≠ key) (n : key.Number) (s : Settings) :
    other.get (key.put n s) = other.get s := by
  cases key <;> cases other <;> first | rfl | exact absurd rfl h

theorem retryable_put (key : Key) (n : key.Number) (s : Settings) :
    (key.put n s).retryable = s.retryable := by
  cases key <;> rfl

theorem mem_all (key : Key) : key ∈ all := by cases key <;> decide

theorem nodup_all : all.Nodup := by decide

end Key

/-- Settings are the numbers of all keys and the errors that are worth another attempt. -/
theorem ext_get {s t : Settings} (h : ∀ key : Key, key.get s = key.get t)
    (hretryable : s.retryable = t.retryable) : s = t := by
  cases s
  cases t
  simp only [mk.injEq]
  exact ⟨h .maxAttempts, h .baseDelayMs, h .multiplier, h .maxDelayMs, h .jitterFraction,
    hretryable⟩

/-- A setting is set to the number that is read, or the text is refused with the cause. -/
theorem set_eq (s : Settings) (key : Key) (value : String) :
    s.set key value = match key.read value with
      | .ok n => .ok (key.put n s)
      | .error cause => .error (.setting key.name value cause) := by
  cases key <;> simp only [set, Key.read]
  case maxAttempts =>
    cases Text.readUnsigned UInt32.size (Text.trim value.toList) <;> rfl
  case baseDelayMs | maxDelayMs =>
    cases Text.readUnsigned UInt64.size (Text.trim value.toList) <;> rfl
  case multiplier | jitterFraction =>
    cases Text.readBinary64 (Text.trim value.toList) <;> rfl

/-! ## One variable -/

variable {lookup lookup' : String → Option String} {s t : Settings} {key : Key}
  {keys before after : List Key} {asked : List String}

/-- The number that a variable gives for a setting: the one in its text, or the one there is where
the variable is absent. -/
def found (lookup : String → Option String) (key : Key) (otherwise : key.Number) :
    Except NumeralError key.Number :=
  match lookup key.name with
  | none => .ok otherwise
  | some value => key.read value

/-- A variable is absent, or its text holds a number for the setting. -/
def Readable (lookup : String → Option String) (key : Key) : Prop :=
  ∀ value, lookup key.name = some value → ∃ n, key.read value = .ok n

/-- The variable of a setting holds a text which is no number for it, and an error says so. -/
inductive Unreadable (lookup : String → Option String) (key : Key) : PolicyError → Prop
  | intro {value : String} {cause : NumeralError} (hvalue : lookup key.name = some value)
    (hread : key.read value = .error cause) :
    Unreadable lookup key (.setting key.name value cause)

theorem readable_or_unreadable (lookup : String → Option String) (key : Key) :
    Readable lookup key ∨ ∃ e, Unreadable lookup key e := by
  cases hvalue : lookup key.name with
  | none =>
    refine Or.inl fun value h => ?_
    rw [hvalue] at h
    cases h
  | some value =>
    cases hread : key.read value with
    | error cause => exact Or.inr ⟨_, .intro hvalue hread⟩
    | ok n =>
      refine Or.inl fun value' h => ?_
      obtain rfl := Option.some.inj (hvalue.symm.trans h)
      exact ⟨n, hread⟩

/-- The settings after a variable that can be read. -/
def taken (lookup : String → Option String) (s : Settings) (key : Key) : Settings :=
  match found lookup key (key.get s) with
  | .ok n => key.put n s
  | .error _ => s

theorem found_of_readable (h : Readable lookup key) (s : Settings) :
    found lookup key (key.get s) = .ok (key.get (taken lookup s key)) := by
  have hfound : ∃ n, found lookup key (key.get s) = .ok n := by
    unfold found
    split
    · exact ⟨_, rfl⟩
    · next value hvalue => exact h value hvalue
  obtain ⟨n, hn⟩ := hfound
  rw [taken, hn, Key.get_put]

theorem get_taken_of_ne {other : Key} (h : other ≠ key) (s : Settings) :
    other.get (taken lookup s key) = other.get s := by
  unfold taken
  split
  · exact Key.get_put_of_ne h _ s
  · rfl

theorem retryable_taken (lookup : String → Option String) (s : Settings) (key : Key) :
    (taken lookup s key).retryable = s.retryable := by
  unfold taken
  split
  · exact Key.retryable_put _ _ s
  · rfl

/-! ## All variables in order -/

/-- One variable is asked for and noted, and then the rest follow unless it cannot be read. -/
theorem run_setAll_cons (lookup : String → Option String) (s : Settings) (key : Key)
    (keys : List Key) (asked : List String) : (setAll (noting lookup) s (key :: keys)).run asked
      = (match lookup key.name with
          | none => setAll (noting lookup) s keys
          | some value => match s.set key value with
            | .ok t => setAll (noting lookup) t keys
            | .error e => return .error e).run (asked ++ [key.name]) :=
  rfl

theorem setAll_of_readable (h : Readable lookup key) (s : Settings) (keys : List Key)
    (asked : List String) : (setAll (noting lookup) s (key :: keys)).run asked
      = (setAll (noting lookup) (taken lookup s key) keys).run (asked ++ [key.name]) := by
  rw [run_setAll_cons]
  unfold taken
  cases hvalue : lookup key.name with
  | none => simp only [found, hvalue, Key.put_get]
  | some value =>
    obtain ⟨n, hread⟩ := h value hvalue
    simp only [set_eq, hread, found, hvalue]

theorem setAll_of_unreadable {e : PolicyError} (h : Unreadable lookup key e) (s : Settings)
    (keys : List Key) (asked : List String) :
    (setAll (noting lookup) s (key :: keys)).run asked = (.error e, asked ++ [key.name]) := by
  obtain ⟨hvalue, hread⟩ := h
  rw [run_setAll_cons]
  simp only [hvalue, set_eq, hread]
  rfl

/-- Variables that can be read are taken in turn. -/
theorem setAll_append (h : ∀ key ∈ before, Readable lookup key) (s : Settings) (keys : List Key)
    (asked : List String) : (setAll (noting lookup) s (before ++ keys)).run asked
      = (setAll (noting lookup) (before.foldl (taken lookup) s) keys).run
          (asked ++ before.map Key.name) := by
  induction before generalizing s asked with
  | nil => rw [List.nil_append, List.map_nil, List.append_nil, List.foldl_nil]
  | cons key before ih =>
    obtain ⟨hkey, hbefore⟩ := List.forall_mem_cons.1 h
    rw [List.cons_append, setAll_of_readable hkey, ih hbefore, List.map_cons, List.foldl_cons,
      List.append_assoc, List.singleton_append]

theorem get_foldl_of_notMem (h : key ∉ keys) (s : Settings) :
    key.get (keys.foldl (taken lookup) s) = key.get s := by
  induction keys generalizing s with
  | nil => rfl
  | cons other keys ih =>
    rw [List.foldl_cons, ih (List.not_mem_of_not_mem_cons h),
      get_taken_of_ne (List.ne_of_not_mem_cons h)]

/-- Of keys that are looked up once each, every one has the number of its own variable. -/
theorem found_foldl (hnodup : keys.Nodup) (hreadable : ∀ key ∈ keys, Readable lookup key)
    (hkey : key ∈ keys) (s : Settings) :
    found lookup key (key.get s) = .ok (key.get (keys.foldl (taken lookup) s)) := by
  induction keys generalizing s with
  | nil => cases hkey
  | cons other keys ih =>
    obtain ⟨hnot, hnodup⟩ := List.nodup_cons.1 hnodup
    obtain ⟨hother, hreadable⟩ := List.forall_mem_cons.1 hreadable
    rw [List.foldl_cons]
    rcases List.mem_cons.1 hkey with rfl | hlater
    · rw [get_foldl_of_notMem hnot, found_of_readable hother]
    · have hne : key ≠ other := fun heq => hnot (heq ▸ hlater)
      rw [← ih hnodup hreadable hlater, get_taken_of_ne hne]

theorem retryable_foldl (keys : List Key) (s : Settings) :
    (keys.foldl (taken lookup) s).retryable = s.retryable := by
  induction keys generalizing s with
  | nil => rfl
  | cons key keys ih => rw [List.foldl_cons, ih, retryable_taken]

theorem forall_readable_or_first (lookup : String → Option String) (keys : List Key) :
    (∀ key ∈ keys, Readable lookup key) ∨ ∃ before key after e, keys = before ++ key :: after ∧
      (∀ k ∈ before, Readable lookup k) ∧ Unreadable lookup key e := by
  induction keys with
  | nil => exact Or.inl (List.forall_mem_nil _)
  | cons key keys ih =>
    rcases readable_or_unreadable lookup key with hkey | ⟨e, hkey⟩
    · rcases ih with hall | ⟨before, first, after, e, rfl, hbefore, hfirst⟩
      · exact Or.inl (List.forall_mem_cons.2 ⟨hkey, hall⟩)
      · exact Or.inr ⟨key :: before, first, after, e, rfl,
          List.forall_mem_cons.2 ⟨hkey, hbefore⟩, hfirst⟩
    · exact Or.inr ⟨[], key, keys, e, rfl, List.forall_mem_nil _, hkey⟩

/-! ## What a lookup comes to -/

/-- What a lookup may come to, with the names it asks for: settings that have the number of each
variable, or the default where it is absent; or the error of the first variable that cannot be read,
and then no later one is asked for. -/
inductive Answers (lookup : String → Option String) :
    Except PolicyError Settings × List String → Prop
  | settings {s : Settings} (hfound : ∀ key, found lookup key (key.get default) = .ok (key.get s))
    (hretryable : s.retryable = default.retryable) :
    Answers lookup (.ok s, Key.all.map Key.name)
  | refused {before after : List Key} {key : Key} {e : PolicyError}
    (hsplit : Key.all = before ++ key :: after) (hbefore : ∀ k ∈ before, Readable lookup k)
    (hkey : Unreadable lookup key e) : Answers lookup (.error e, (before ++ [key]).map Key.name)

theorem ofLookup_of_readable (h : ∀ key, Readable lookup key) :
    (ofLookup (noting lookup)).run []
      = (.ok (Key.all.foldl (taken lookup) default), Key.all.map Key.name) := by
  have hrun : (setAll (noting lookup) default (Key.all ++ [])).run []
      = (setAll (noting lookup) (Key.all.foldl (taken lookup) default) []).run
          ([] ++ Key.all.map Key.name) :=
    setAll_append (fun key _ => h key) default [] []
  rw [List.append_nil, List.nil_append] at hrun
  exact hrun

theorem ofLookup_of_unreadable {e : PolicyError} (hsplit : Key.all = before ++ key :: after)
    (hbefore : ∀ k ∈ before, Readable lookup k) (hkey : Unreadable lookup key e) :
    (ofLookup (noting lookup)).run [] = (.error e, (before ++ [key]).map Key.name) := by
  rw [ofLookup, hsplit, setAll_append hbefore, setAll_of_unreadable hkey, List.nil_append,
    List.map_append]
  rfl

/-- Every lookup comes to what fits. -/
theorem answers_ofLookup (lookup : String → Option String) :
    Answers lookup ((ofLookup (noting lookup)).run []) := by
  rcases forall_readable_or_first lookup Key.all with
    hall | ⟨before, key, after, e, hsplit, hbefore, hkey⟩
  · rw [ofLookup_of_readable fun key => hall key key.mem_all]
    exact .settings (fun key => found_foldl Key.nodup_all hall key.mem_all default)
      (retryable_foldl _ _)
  · rw [ofLookup_of_unreadable hsplit hbefore hkey]
    exact .refused hsplit hbefore hkey

theorem readable_of_found {n n' : key.Number} (h : found lookup key n = .ok n') :
    Readable lookup key := by
  intro value hvalue
  rw [found, hvalue] at h
  exact ⟨n', h⟩

/-- Nothing else fits. -/
theorem ofLookup_of_answers {answer : Except PolicyError Settings × List String}
    (h : Answers lookup answer) : (ofLookup (noting lookup)).run [] = answer := by
  cases h with
  | @settings s hfound hretryable =>
    have hreadable (key : Key) : Readable lookup key := readable_of_found (hfound key)
    have heq : Key.all.foldl (taken lookup) default = s := by
      refine ext_get (fun key => ?_) ((retryable_foldl _ _).trans hretryable.symm)
      have hfold := found_foldl Key.nodup_all (fun k _ => hreadable k) key.mem_all default
      exact Except.ok.inj (hfold.symm.trans (hfound key))
    rw [ofLookup_of_readable hreadable, heq]
  | refused hsplit hbefore hkey => exact ofLookup_of_unreadable hsplit hbefore hkey

/-- Settings come of a lookup exactly if every variable that is there can be read. -/
theorem exists_ofLookup_eq_ok_iff :
    (∃ s, ((ofLookup (noting lookup)).run []).1 = .ok s) ↔ ∀ key, Readable lookup key := by
  constructor
  · rintro ⟨s, hs⟩ key
    generalize hrun : (ofLookup (noting lookup)).run [] = answer at hs
    have hanswer := answers_ofLookup lookup
    rw [hrun] at hanswer
    cases hanswer with
    | settings hfound _ => exact readable_of_found (hfound key)
    | refused _ _ _ => cases hs
  · intro hreadable
    rw [ofLookup_of_readable hreadable]
    exact ⟨_, rfl⟩

/-- No other variables matter. -/
theorem setAll_congr {m : Type → Type} [Monad m] {look look' : String → m (Option String)}
    (h : ∀ key : Key, look key.name = look' key.name) (s : Settings) (keys : List Key) :
    setAll look s keys = setAll look' s keys := by
  induction keys generalizing s with
  | nil => rfl
  | cons key keys ih =>
    simp only [setAll, h, ih]

/-- The names are only noted: without notes a lookup comes to the same. -/
theorem run_setAll (lookup : String → Option String) (s : Settings) (keys : List Key)
    (asked : List String) : ((setAll (noting lookup) s keys).run asked).1
      = Id.run (setAll (m := Id) lookup s keys) := by
  induction keys generalizing s asked with
  | nil => rfl
  | cons key keys ih =>
    show _ = Id.run (match lookup key.name with
      | none => setAll (m := Id) lookup s keys
      | some value => match s.set key value with
        | .ok t => setAll (m := Id) lookup t keys
        | .error e => .error e)
    rw [run_setAll_cons]
    cases lookup key.name with
    | none => exact ih s _
    | some value =>
      dsimp only
      cases s.set key value with
      | error e => rfl
      | ok t => exact ih t _

/-- The settings of a backoff, times in nanoseconds. -/
structure Realizes (s : Settings) (b : Backoff) : Prop where
  maxAttempts : b.maxAttempts = s.maxAttempts
  baseDelay : b.baseDelay.nanoseconds = s.baseDelayMs.toNat * 1000000
  multiplier : b.multiplier = s.multiplier
  maxDelay : b.maxDelay.nanoseconds = s.maxDelayMs.toNat * 1000000
  jitterFraction : b.jitterFraction = s.jitterFraction
  retryable : b.retryable = .ofList s.retryable

/-- Settings are refused for a number out of range, or the backoff has them all. -/
theorem build_refused_or_realizes (s : Settings) (jitter : JitterSource) :
    (∃ e, s.build jitter = .error e ∧
      Backoff.Refused s.maxAttempts s.multiplier s.jitterFraction e) ∨
    ∃ b, s.build jitter = .ok b ∧ Realizes s b := by
  have hbuild := Backoff.admits_build s jitter
  rcases Backoff.valid_or_refused s.maxAttempts s.multiplier s.jitterFraction with
    hvalid | ⟨e, hrefused⟩
  · exact Or.inr ⟨_, (hbuild.ok _).2 ⟨hvalid, rfl⟩, rfl, rfl, rfl, rfl, rfl, rfl⟩
  · exact Or.inl ⟨e, (hbuild.error e).2 hrefused, hrefused⟩

/-- The five variables decide the settings, and the first one that cannot be read decides the error.

* A lookup comes to what fits the variables, names asked for included, and nothing else does.
* Settings come of it exactly if every variable that is there can be read.
* Lookups that agree on the five names come to the same, and ask for the same names.
* Without notes of the names the settings and the error are the same.
* A backoff with the settings is refused for a number out of range, or it has all of them, times in
  milliseconds, and goes on after the errors of the default. -/
theorem variables_decide (lookup : String → Option String) :
    (∀ answer, (ofLookup (noting lookup)).run [] = answer ↔ Answers lookup answer) ∧
    ((∃ s, ((ofLookup (noting lookup)).run []).1 = .ok s) ↔ ∀ key, Readable lookup key) ∧
    (∀ lookup' : String → Option String, (∀ key : Key, lookup' key.name = lookup key.name) →
      (ofLookup (noting lookup')).run [] = (ofLookup (noting lookup)).run []) ∧
    ((ofLookup (noting lookup)).run []).1 = Id.run (ofLookup (m := Id) lookup) ∧
    ∀ s, ((ofLookup (noting lookup)).run []).1 = .ok s →
      s.retryable = default.retryable ∧ ∀ jitter,
        (∃ e, s.build jitter = .error e ∧
          Backoff.Refused s.maxAttempts s.multiplier s.jitterFraction e) ∨
        ∃ b, s.build jitter = .ok b ∧ Realizes s b := by
  refine ⟨fun answer => ⟨?_, ofLookup_of_answers⟩, exists_ofLookup_eq_ok_iff, ?_,
    run_setAll lookup default Key.all [], ?_⟩
  · rintro rfl
    exact answers_ofLookup lookup
  · intro lookup' hagree
    have hnoting (key : Key) : noting lookup' key.name = noting lookup key.name := by
      rw [noting, noting, hagree]
    exact congrArg (StateT.run · []) (setAll_congr hnoting default Key.all)
  · intro s hs
    refine ⟨?_, build_refused_or_realizes s⟩
    have hanswer := answers_ofLookup lookup
    generalize (ofLookup (noting lookup)).run [] = answer at hs hanswer
    cases hanswer with
    | settings _ hretryable =>
      rw [← Except.ok.inj hs]
      exact hretryable
    | refused _ _ _ => cases hs

end Settings

end Retry

end EventSourcing
