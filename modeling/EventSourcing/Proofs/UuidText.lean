import EventSourcing.Identity
import EventSourcing.Proofs.Digits
import Mathlib.Algebra.Group.Nat.Defs

/-!
# The text of an identifier

Every identifier is read back from its canonical text (`Uuid.parse_chars`). The text has 36 bytes,
so the reader looks for groups; without the hyphens it is the 32 digits of the value.
-/

namespace EventSourcing

namespace Uuid

/-! ## Digits -/

theorem length_hexDigits (value n : Nat) : (hexDigits value n).length = n := by
  induction n generalizing value with
  | zero => rfl
  | succ n ih => rw [hexDigits, List.length_append, ih, List.length_singleton]

theorem mem_hexDigits {value n : Nat} {c : Char} (h : c ∈ hexDigits value n) :
    ∃ d < 16, c = Nat.digitChar d := by
  induction n generalizing value with
  | zero => cases h
  | succ n ih =>
    rcases List.mem_append.1 h with hfront | hlast
    · exact ih hfront
    · exact ⟨value % 16, Nat.mod_lt _ (by decide), List.mem_singleton.1 hlast⟩

theorem digitChar_ne_hyphen : ∀ d < 16, Nat.digitChar d ≠ '-' := by decide

theorem utf8Size_digitChar : ∀ d < 16, (Nat.digitChar d).utf8Size = 1 := by decide

/-- The digits of a value are read back as the value, up to the number of digits. -/
theorem mapM_hexDigits (value n : Nat) :
    ∃ ds, (hexDigits value n).mapM Text.hexDigit? = some ds ∧
      ds.foldl (fun n d => n * 16 + d) 0 = value % 16 ^ n := by
  induction n generalizing value with
  | zero => exact ⟨[], rfl, by rw [Nat.pow_zero, Nat.mod_one]; rfl⟩
  | succ n ih =>
    obtain ⟨ds, hread, hvalue⟩ := ih (value / 16)
    have hlast : [Nat.digitChar (value % 16)].mapM Text.hexDigit? = some [value % 16] := by
      rw [List.mapM_cons, Text.hexDigit?_digitChar _ (Nat.mod_lt _ (by decide))]
      rfl
    refine ⟨ds ++ [value % 16], ?_, ?_⟩
    · rw [hexDigits, List.mapM_append, hread, hlast]
      rfl
    · rw [List.foldl_append, hvalue, Nat.pow_succ, Nat.mul_comm (16 ^ n), Nat.mod_mul]
      show value / 16 % 16 ^ n * 16 + value % 16 = _
      omega

theorem ofNat_value (id : Uuid) : ofNat id.value = id := by
  cases id with
  | mk value bounded => simp only [ofNat, Nat.mod_eq_of_lt bounded]

theorem ofDigits?_hexDigits (id : Uuid) : ofDigits? (hexDigits id.value 32) = some id := by
  obtain ⟨ds, hread, hvalue⟩ := mapM_hexDigits id.value 32
  have hsize : 16 ^ 32 = 1 <<< 128 := by decide
  have hlength := length_hexDigits id.value 32
  rw [hsize, Nat.mod_eq_of_lt id.bounded] at hvalue
  -- the digits count only through their number and their value
  generalize hexDigits id.value 32 = digits at hread hlength
  rw [ofDigits?, if_pos hlength, hread, Option.map_some, hvalue, ofNat_value]

/-! ## Groups -/

theorem filter_hyphenate {digits : List Char} (h : ∀ c ∈ digits, c ≠ '-') :
    (hyphenate digits).filter (· ≠ '-') = digits := by
  have hkeep : ∀ part : List Char, part ⊆ digits → part.filter (· ≠ '-') = part := by
    intro part hpart
    rw [List.filter_eq_self]
    intro c hc
    exact decide_eq_true (h c (hpart hc))
  -- without the hyphens the five groups are the digits again
  have hparts : digits.take 8 ++ ((digits.drop 8).take 4 ++ ((digits.drop 12).take 4
      ++ ((digits.drop 16).take 4 ++ digits.drop 20))) = digits := by
    have h16 := List.take_append_drop 4 (digits.drop 16)
    have h12 := List.take_append_drop 4 (digits.drop 12)
    have h8 := List.take_append_drop 4 (digits.drop 8)
    rw [List.drop_drop] at h16 h12 h8
    rw [h16, h12, h8, List.take_append_drop]
  have hdrop : ∀ n m, (digits.drop n).take m ⊆ digits := fun n m c hc =>
    List.mem_of_mem_drop (List.mem_of_mem_take hc)
  simp only [hyphenate, List.filter_append, List.filter_cons, List.append_assoc,
    hkeep _ (List.take_sublist 8 _).subset, hkeep _ (hdrop 8 4), hkeep _ (hdrop 12 4),
    hkeep _ (hdrop 16 4), hkeep _ (List.drop_sublist 20 _).subset]
  exact hparts

theorem byteLength_eq_length {cs : List Char} (h : ∀ c ∈ cs, c.utf8Size = 1) :
    byteLength cs = cs.length := by
  induction cs with
  | nil => rfl
  | cons c cs ih =>
    show c.utf8Size + byteLength cs = _
    rw [h c List.mem_cons_self, ih fun d hd => h d (List.mem_cons_of_mem c hd), List.length_cons,
      Nat.add_comm]

theorem mem_hyphenate {digits : List Char} {c : Char} (h : c ∈ hyphenate digits) :
    c = '-' ∨ c ∈ digits := by
  simp only [hyphenate, List.mem_append, List.mem_cons] at h
  rcases h with (((h | rfl | h) | rfl | h) | rfl | h) | rfl | h
  · exact Or.inr (List.mem_of_mem_take h)
  · exact Or.inl rfl
  · exact Or.inr (List.mem_of_mem_drop (List.mem_of_mem_take h))
  · exact Or.inl rfl
  · exact Or.inr (List.mem_of_mem_drop (List.mem_of_mem_take h))
  · exact Or.inl rfl
  · exact Or.inr (List.mem_of_mem_drop (List.mem_of_mem_take h))
  · exact Or.inl rfl
  · exact Or.inr (List.mem_of_mem_drop h)

theorem byteLength_chars (id : Uuid) : byteLength id.chars = 36 := by
  have hlength := length_hexDigits id.value 32
  rw [byteLength_eq_length]
  · simp only [chars, hyphenate, List.length_append, List.length_cons, List.length_take,
      List.length_drop, hlength]
    rfl
  · intro c hc
    rcases mem_hyphenate hc with rfl | hdigit
    · decide
    · obtain ⟨d, hd, rfl⟩ := mem_hexDigits hdigit
      exact utf8Size_digitChar d hd

/-- Every identifier is read back from its canonical text. -/
theorem parse_chars (id : Uuid) : parse id.chars = .ok id := by
  have hgroups : groups? id.chars = some id.chars := by
    unfold groups?
    rw [byteLength_chars]
    rfl
  have hdigits : id.chars.filter (· ≠ '-') = hexDigits id.value 32 := by
    apply filter_hyphenate
    intro c hc
    obtain ⟨d, hd, rfl⟩ := mem_hexDigits hc
    exact digitChar_ne_hyphen d hd
  have hread : ofGroups? id.chars = some id := by
    rw [ofGroups?, hdigits]
    show (if id.chars = id.chars then _ else none) = _
    rw [if_pos rfl, ofDigits?_hexDigits]
  rw [parse, hgroups]
  simp only [hread]

theorem ofText?_text (id : Uuid) : ofText? id.text = some id := by
  rw [ofText?, text, String.toList_ofList, parse_chars]

end Uuid

end EventSourcing
