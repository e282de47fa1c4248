import EventSourcing.Json.Basic
import EventSourcing.Proofs.Digits

/-!
# The text of JSON

Every value is read back from its compact text (`Json.parse_render`). The proof has the two layers
of the reader:

* characters to tokens: a number, a string and a whole token are read back in front of any text
  that does not continue them (`Number.lex_text`, `Piece.scan_escape`, `Token.next?_text`);
* tokens to values: the reader's machine, started where a value is expected, takes exactly the
  tokens of the value (`Reading.run_tokens`).

A number is the only token that the text behind it can continue, and no two values of a text
stand side by side.
-/

namespace EventSourcing

namespace Json

namespace Number

/-- The text does not continue a number in front of it. -/
def Ends (rest : List Char) : Prop :=
  ∀ c ∈ rest.head?, c.isDigit = false ∧ c ≠ '.' ∧ c ≠ 'e' ∧ c ≠ 'E'

theorem ends_nil : Ends [] := fun _ h => by cases h

theorem ends_cons {c : Char} (h : c.isDigit = false ∧ c ≠ '.' ∧ c ≠ 'e' ∧ c ≠ 'E')
    (rest : List Char) : Ends (c :: rest) := by
  intro d hd
  cases hd
  exact h

theorem Ends.endsDigits {rest : List Char} (h : Ends rest) : Text.EndsDigits rest :=
  fun c hc => (h c hc).1

theorem lexWhole_toDigits (n : Nat) {rest : List Char} (hrest : Text.EndsDigits rest) :
    lexWhole (Nat.toDigits 10 n ++ rest) = some (n, rest) := by
  have hdigits : ∀ c ∈ Nat.toDigits 10 n, c.isDigit = true := fun _ h =>
    Text.isDigit_of_mem_decimal h
  rw [lexWhole, Text.takeWhile_isDigit_append hdigits hrest,
    Text.dropWhile_isDigit_append hdigits hrest]
  cases hn : Nat.toDigits 10 n with
  | nil => exact absurd hn Nat.toDigits_ne_nil
  | cons c more =>
    show (if c = '0' ∧ more ≠ [] then none else some (Nat.ofDigitChars 10 (c :: more) 0, rest)) = _
    rw [if_neg (Text.toDigits_ne_zero_cons hn), ← hn, Nat.ofDigitChars_ten_toDigits]

theorem isDigit_digitChar : ∀ d : Fin 10, (digitChar d).isDigit = true := by decide

theorem digitOf_digitChar : ∀ d : Fin 10, digitOf (digitChar d) = d := by decide

/-- The written form of a fraction. -/
def fractionText (fraction : List (Fin 10)) : List Char :=
  if fraction.isEmpty then [] else '.' :: fraction.map digitChar

/-- The written form of an exponent. -/
def exponentText : Option Int → List Char
  | none => []
  | some e => 'e' :: (if e < 0 then '-' else '+') :: Nat.toDigits 10 e.natAbs

theorem text_eq (n : Number) :
    n.text = (if n.negative then ['-'] else []) ++ Nat.toDigits 10 n.whole
      ++ fractionText n.fraction ++ exponentText n.exponent := by
  cases h : n.exponent <;> simp only [text, exponentText, fractionText, h]

theorem lexFraction_text (fraction : List (Fin 10)) {rest : List Char}
    (hdigit : Text.EndsDigits rest) (hpoint : rest.head? ≠ some '.') :
    lexFraction (fractionText fraction ++ rest) = some (fraction, rest) := by
  cases fraction with
  | nil =>
    show lexFraction rest = _
    unfold lexFraction
    split
    · exact absurd rfl hpoint
    · rfl
  | cons d ds =>
    have hdigits : ∀ c ∈ (d :: ds).map digitChar, c.isDigit = true := by
      intro c hc
      obtain ⟨e, -, rfl⟩ := List.mem_map.1 hc
      exact isDigit_digitChar e
    show lexFraction ('.' :: ((d :: ds).map digitChar ++ rest)) = _
    rw [lexFraction, Text.takeWhile_isDigit_append hdigits hdigit,
      Text.dropWhile_isDigit_append hdigits hdigit, List.map_map]
    have hid : digitOf ∘ digitChar = id := funext digitOf_digitChar
    rw [hid, List.map_id]
    rfl

theorem lexExponentDigits_toDigits (negative : Bool) (n : Nat) {rest : List Char}
    (hrest : Text.EndsDigits rest) :
    lexExponentDigits negative (Nat.toDigits 10 n ++ rest)
      = some (some (if negative then -(n : Int) else n), rest) := by
  have hdigits : ∀ c ∈ Nat.toDigits 10 n, c.isDigit = true := fun _ h =>
    Text.isDigit_of_mem_decimal h
  simp only [lexExponentDigits, Text.takeWhile_isDigit_append hdigits hrest,
    Text.dropWhile_isDigit_append hdigits hrest, Nat.ofDigitChars_ten_toDigits,
    List.isEmpty_iff, Nat.toDigits_ne_nil, if_false]

theorem lexExponent_text (exponent : Option Int) {rest : List Char} (hrest : Ends rest) :
    lexExponent (exponentText exponent ++ rest) = some (exponent, rest) := by
  cases exponent with
  | none =>
    cases rest with
    | nil => rfl
    | cons c rest =>
      -- the text behind the number could only be taken for an exponent by its first letter
      obtain ⟨-, -, he, hE⟩ := hrest c rfl
      show lexExponent (c :: rest) = _
      unfold lexExponent
      exact if_neg (by simp [he, hE])
  | some e =>
    show lexExponent ('e' :: (if e < 0 then '-' else '+') :: (Nat.toDigits 10 e.natAbs ++ rest)) = _
    by_cases hneg : e < 0
    · have habs : -(e.natAbs : Int) = e := by omega
      rw [if_pos hneg, lexExponent, if_pos (Or.inl rfl)]
      show lexExponentDigits true _ = _
      rw [lexExponentDigits_toDigits true _ hrest.endsDigits, if_pos rfl, habs]
    · have habs : (e.natAbs : Int) = e := by omega
      rw [if_neg hneg, lexExponent, if_pos (Or.inl rfl)]
      show lexExponentDigits false _ = _
      rw [lexExponentDigits_toDigits false _ hrest.endsDigits, if_neg (by decide), habs]

/-- What stands behind the fraction of a number starts with no digit and no point. -/
theorem head_exponentText (exponent : Option Int) {rest : List Char} (hrest : Ends rest) :
    Text.EndsDigits (exponentText exponent ++ rest) ∧
      (exponentText exponent ++ rest).head? ≠ some '.' := by
  cases exponent with
  | none => exact ⟨hrest.endsDigits, fun h => (hrest '.' h).2.1 rfl⟩
  | some e => exact ⟨Text.endsDigits_cons (by decide) _, by simp [exponentText]⟩

theorem lexUnsigned_text (n : Number) {rest : List Char} (hrest : Ends rest) :
    lexUnsigned n.negative
      (Nat.toDigits 10 n.whole ++ (fractionText n.fraction ++ (exponentText n.exponent ++ rest)))
      = some (n, rest) := by
  obtain ⟨hdigit, hpoint⟩ := head_exponentText n.exponent hrest
  have hwhole : Text.EndsDigits (fractionText n.fraction ++ (exponentText n.exponent ++ rest)) := by
    cases n.fraction with
    | nil => exact hdigit
    | cons d ds => exact Text.endsDigits_cons (by decide) _
  simp only [lexUnsigned, lexWhole_toDigits n.whole hwhole,
    lexFraction_text n.fraction hdigit hpoint, lexExponent_text n.exponent hrest, bind,
    Option.bind_some]
  rfl

/-- A number is read back in front of any text that does not continue it. -/
theorem lex_text (n : Number) {rest : List Char} (hrest : Ends rest) :
    lex (n.text ++ rest) = some (n, rest) := by
  have hunsigned := lexUnsigned_text n hrest
  rw [text_eq]
  simp only [List.append_assoc]
  cases hneg : n.negative with
  | true =>
    rw [hneg] at hunsigned
    exact hunsigned
  | false =>
    rw [hneg] at hunsigned
    show lex (Nat.toDigits 10 n.whole ++ _) = _
    unfold lex
    split
    · next cs heq =>
      -- no number starts with a hyphen
      cases hwhole : Nat.toDigits 10 n.whole with
      | nil => exact absurd hwhole Nat.toDigits_ne_nil
      | cons c more =>
        rw [hwhole] at heq
        have hdigit : c.isDigit = true :=
          Text.isDigit_of_mem_decimal (n := n.whole) (by rw [hwhole]; exact List.mem_cons_self)
        cases heq
        exact absurd hdigit (by decide)
    · exact hunsigned

end Number

/-! ## Strings -/

namespace Piece

/-- A code unit below the surrogates is a character of its own. -/
theorem text?_unit {n : Nat} (h : n < 0xd800) (rest : List Piece) :
    text? (.unit n :: rest) = (text? rest).map (Char.ofNat n :: ·) := by
  have hhigh : isHighSurrogate n = false := by simp [isHighSurrogate]; omega
  have hlow : isLowSurrogate n = false := by simp [isLowSurrogate]; omega
  cases rest with
  | nil => simp [text?, hhigh, hlow]
  | cons p rest => cases p <;> simp [text?, hhigh, hlow]

/-- The four digits of an escaped control character. -/
theorem unitOf_control {n : Nat} (h : n < 32) :
    unitOf '0' '0' (Nat.digitChar (n / 16)) (Nat.digitChar (n % 16)) = some n := by
  have hzero : Text.hexDigit? '0' = some 0 := by decide
  have hvalue : ((0 * 16 + 0) * 16 + n / 16) * 16 + n % 16 = n := by omega
  simp only [unitOf, hzero, Text.hexDigit?_digitChar (n / 16) (by omega),
    Text.hexDigit?_digitChar (n % 16) (by omega), bind, Option.bind_some, hvalue]
  rfl

/-- A character inside a string is read as one piece, which spells the character. -/
theorem scan_escape (c : Char) {cs rest : List Char} {pieces : List Piece}
    (h : scan cs = some (pieces, rest)) :
    ∃ p, scan (Token.escape c ++ cs) = some (p :: pieces, rest) ∧
      ∀ more, text? (p :: more) = (text? more).map (c :: ·) := by
  by_cases hshort : c ∈ ['"', '\\', '\x08', '\x0c', '\n', '\r', '\t']
  · -- the escapes of one letter
    refine ⟨.char c, ?_, fun more => by rw [text?]⟩
    simp only [List.mem_cons, List.not_mem_nil, or_false] at hshort
    rcases hshort with rfl | rfl | rfl | rfl | rfl | rfl | rfl <;>
      simp [Token.escape, scan, escaped?, h]
  · simp only [List.mem_cons, List.not_mem_nil, or_false, not_or] at hshort
    obtain ⟨hquote, hslash, hb, hf, hn, hr, ht⟩ := hshort
    by_cases hcontrol : c < ' '
    · -- the other control characters stand as code units
      have hlt : c.toNat < 32 := hcontrol
      refine ⟨.unit c.toNat, ?_, fun more => by rw [text?_unit (by omega), Char.ofNat_toNat]⟩
      simp only [Token.escape, if_neg hquote, if_neg hslash, if_neg hb, if_neg hf, if_neg hn,
        if_neg hr, if_neg ht, if_pos hcontrol, List.cons_append, List.nil_append]
      rw [scan, unitOf_control hlt, h]
    · -- every other character stands for itself
      refine ⟨.char c, ?_, fun more => by rw [text?]⟩
      simp only [Token.escape, if_neg hquote, if_neg hslash, if_neg hb, if_neg hf, if_neg hn,
        if_neg hr, if_neg ht, if_neg hcontrol, List.cons_append, List.nil_append]
      rw [scan.eq_def]
      split <;> simp_all

/-- The inside of a string is read back up to the closing quote. -/
theorem scan_text (s : List Char) (rest : List Char) :
    ∃ pieces, scan (s.flatMap Token.escape ++ '"' :: rest) = some (pieces, rest) ∧
      text? pieces = some s := by
  induction s with
  | nil => exact ⟨[], by rw [List.flatMap_nil, List.nil_append, scan], rfl⟩
  | cons c s ih =>
    obtain ⟨pieces, hscan, htext⟩ := ih
    obtain ⟨p, hp, hspells⟩ := scan_escape c hscan
    refine ⟨p :: pieces, by rw [List.flatMap_cons, List.append_assoc, hp], ?_⟩
    rw [hspells, htext]
    rfl

end Piece

/-! ## Tokens -/

namespace Number

/-- A number starts with a hyphen or a digit. -/
theorem text_eq_cons (n : Number) :
    ∃ c more, n.text = c :: more ∧ (c = '-' ∨ c.isDigit = true) := by
  rw [text_eq]
  cases n.negative with
  | true => exact ⟨'-', _, rfl, Or.inl rfl⟩
  | false =>
    cases hwhole : Nat.toDigits 10 n.whole with
    | nil => exact absurd hwhole Nat.toDigits_ne_nil
    | cons c more =>
      refine ⟨c, _, rfl, Or.inr (Text.isDigit_of_mem_decimal (n := n.whole) ?_)⟩
      rw [hwhole]
      exact List.mem_cons_self

end Number

namespace Token

/-- A text that starts like a number is read as one. -/
theorem next?_number {c : Char} {cs rest : List Char} {n : Number}
    (hc : c = '-' ∨ c.isDigit = true) (h : Number.lex (c :: cs) = some (n, rest)) :
    next? (c :: cs) = some (number n, rest) := by
  unfold next?
  split <;>
    first
    | rw [h]
    | next heq =>
      -- a mark or a letter is neither a hyphen nor a digit
      cases heq
      exact absurd hc (by decide)

/-- A token is read back in front of any text; behind a number the text must not continue it. -/
theorem next?_text (t : Token) {rest : List Char}
    (hrest : ∀ n, t = .number n → Number.Ends rest) : next? (t.text ++ rest) = some (t, rest) := by
  cases t with
  | number n =>
    obtain ⟨c, more, htext, hc⟩ := n.text_eq_cons
    have hlex := Number.lex_text n (hrest n rfl)
    rw [text, htext] at *
    exact next?_number hc hlex
  | string s =>
    cases s with
    | some s =>
      obtain ⟨pieces, hscan, htext⟩ := Piece.scan_text s.toList rest
      rw [text, List.cons_append, List.append_assoc, List.singleton_append, next?, hscan]
      simp only [htext, Option.map_some, String.ofList_toList]
    | none =>
      -- what is no text is written as a lone surrogate, which no text has
      have hunit : Piece.unitOf 'd' '8' '0' '0' = some 0xd800 := by decide
      have htext : Piece.text? [.unit 0xd800] = none := by decide
      simp [text, next?, Piece.scan, hunit, htext]
  | bool b => cases b <;> simp [text, next?]
  | _ => simp [text, next?]

theorem text_eq_cons (t : Token) : ∃ c more, t.text = c :: more ∧ isSpace c = false := by
  cases t with
  | number n =>
    obtain ⟨c, more, htext, hc⟩ := n.text_eq_cons
    refine ⟨c, more, htext, ?_⟩
    cases hspace : isSpace c with
    | false => rfl
    | true =>
      simp only [isSpace, Bool.or_eq_true, decide_eq_true_eq] at hspace
      rcases hspace with ((rfl | rfl) | rfl) | rfl <;> exact absurd hc (by decide)
  | string s => cases s <;> exact ⟨_, _, rfl, by decide⟩
  | bool b => cases b <;> exact ⟨_, _, rfl, by decide⟩
  | _ => exact ⟨_, _, rfl, by decide⟩

theorem lex_nil : lex [] = some [] := by rw [lex.eq_def]

theorem lex_cons {c : Char} {cs rest : List Char} {t : Token} (hspace : isSpace c = false)
    (hnext : next? (c :: cs) = some (t, rest)) : lex (c :: cs) = (lex rest).map (t :: ·) := by
  rw [lex]
  simp only [hspace, Bool.false_eq_true, if_false]
  split
  · next heq =>
    rw [hnext] at heq
    cases heq
    rfl
  · next heq =>
    rw [hnext] at heq
    cases heq

/-- The written tokens in front of a text are the first tokens of the whole. -/
theorem lex_text (t : Token) (rest : List Char) (hrest : ∀ n, t = .number n → Number.Ends rest) :
    lex (t.text ++ rest) = (lex rest).map (t :: ·) := by
  have hnext := next?_text t hrest
  obtain ⟨c, more, htext, hspace⟩ := t.text_eq_cons
  rw [htext, List.cons_append] at hnext ⊢
  exact lex_cons hspace hnext

end Token

/-! ## Values -/

mutual

/-- The tokens of a value are read back from its text. -/
theorem lex_tokens (v : Json) (rest : List Char) (hrest : Number.Ends rest) :
    Token.lex (v.tokens.flatMap Token.text ++ rest) = (Token.lex rest).map (v.tokens ++ ·) := by
  match v with
  | null => simpa [tokens] using Token.lex_text .null rest (by simp)
  | bool b => simpa [tokens] using Token.lex_text (.bool b) rest (by simp)
  | number n => simpa [tokens] using Token.lex_text (.number n) rest fun _ _ => hrest
  | string s => simpa [tokens] using Token.lex_text (.string s) rest (by simp)
  | array items =>
    -- the closing bracket ends the last item, whatever stands behind it
    have hitems := lex_itemTokens items (Token.closeBracket.text ++ rest)
      (Number.ends_cons (by decide) rest)
    rw [Token.lex_text .closeBracket _ (by simp)] at hitems
    rw [tokens, List.flatMap_cons, List.flatMap_append, List.flatMap_singleton, List.append_assoc,
      List.append_assoc, Token.lex_text .openBracket _ (by simp), hitems]
    simp [Function.comp_def]
  | object members =>
    have hmembers := lex_memberTokens members (Token.closeBrace.text ++ rest)
      (Number.ends_cons (by decide) rest)
    rw [Token.lex_text .closeBrace _ (by simp)] at hmembers
    rw [tokens, List.flatMap_cons, List.flatMap_append, List.flatMap_singleton, List.append_assoc,
      List.append_assoc, Token.lex_text .openBrace _ (by simp), hmembers]
    simp [Function.comp_def]

theorem lex_itemTokens (items : List Json) (rest : List Char) (hrest : Number.Ends rest) :
    Token.lex ((itemTokens items).flatMap Token.text ++ rest)
      = (Token.lex rest).map (itemTokens items ++ ·) := by
  match items with
  | [] => simp [itemTokens]
  | [v] => exact lex_tokens v rest hrest
  | v :: w :: more =>
    -- the comma ends the first item
    have hv := lex_tokens v (Token.comma.text
      ++ ((itemTokens (w :: more)).flatMap Token.text ++ rest)) (Number.ends_cons (by decide) _)
    rw [Token.lex_text .comma _ (by simp), lex_itemTokens (w :: more) rest hrest] at hv
    rw [itemTokens, List.flatMap_append, List.flatMap_cons, List.append_assoc, List.append_assoc,
      hv]
    simp [Function.comp_def]

theorem lex_memberTokens (members : List (Option String × Json)) (rest : List Char)
    (hrest : Number.Ends rest) :
    Token.lex ((memberTokens members).flatMap Token.text ++ rest)
      = (Token.lex rest).map (memberTokens members ++ ·) := by
  match members with
  | [] => simp [memberTokens]
  | [(k, v)] =>
    rw [memberTokens, List.flatMap_cons, List.flatMap_cons, List.append_assoc, List.append_assoc,
      Token.lex_text (.string k) _ (by simp), Token.lex_text .colon _ (by simp), lex_tokens v rest hrest]
    simp [Function.comp_def]
  | (k, v) :: m :: more =>
    have hv := lex_tokens v (Token.comma.text
      ++ ((memberTokens (m :: more)).flatMap Token.text ++ rest)) (Number.ends_cons (by decide) _)
    rw [Token.lex_text .comma _ (by simp), lex_memberTokens (m :: more) rest hrest] at hv
    rw [memberTokens, List.flatMap_cons, List.flatMap_cons, List.flatMap_append, List.flatMap_cons,
      List.append_assoc, List.append_assoc, List.append_assoc, List.append_assoc,
      Token.lex_text (.string k) _ (by simp), Token.lex_text .colon _ (by simp), hv]
    simp [Function.comp_def]

end

namespace Reading

/-- No value starts with a closing bracket, so an array may have a first item. -/
theorem run_firstItem (v : Json) (outer : List Frame) (ts : List Token) :
    run (firstItem outer) (v.tokens ++ ts) = run (value (.items [] :: outer)) (v.tokens ++ ts) := by
  cases v <;> simp only [tokens, List.cons_append, run, step]

mutual

/-- Where a value is expected, the reader takes the tokens of the value and no more. -/
theorem run_tokens (v : Json) (outer : List Frame) (ts : List Token) :
    run (value outer) (v.tokens ++ ts) = run (put v outer) ts := by
  match v with
  | null | bool _ | number _ | string _ =>
    simp only [tokens, List.singleton_append, run, step, start]
  | array [] =>
    simp only [tokens, itemTokens, List.nil_append, List.cons_append, run, step, start]
  | array (w :: items) =>
    -- the first item is expected in a state of its own, where the array may also end
    have hitems := run_itemTokens (w :: items) (by simp) [] outer ts
    rw [tokens, List.cons_append, List.append_assoc, List.singleton_append]
    show run (firstItem outer) _ = _
    cases items with
    | nil =>
      rw [itemTokens, run_firstItem]
      exact hitems
    | cons x items =>
      rw [itemTokens, List.append_assoc, run_firstItem, ← List.append_assoc]
      exact hitems
  | object [] =>
    simp only [tokens, memberTokens, List.nil_append, List.cons_append, run, step, start]
  | object (m :: members) =>
    have hmembers := run_memberTokens (m :: members) (by simp) [] outer ts
    rw [tokens, List.cons_append, List.append_assoc, List.singleton_append]
    show run (firstKey outer) _ = _
    cases members with
    | nil => exact hmembers
    | cons l members => exact hmembers

theorem run_itemTokens (items : List Json) (hitems : items ≠ []) (before : List Json)
    (outer : List Frame) (ts : List Token) :
    run (value (.items before :: outer)) (itemTokens items ++ .closeBracket :: ts)
      = run (put (array (before.reverse ++ items)) outer) ts := by
  match items with
  | [] => exact absurd rfl hitems
  | [v] =>
    rw [itemTokens, run_tokens]
    simp only [put, run, step, List.reverse_cons]
  | v :: w :: items =>
    -- the items that are read stand in the open frame, the last one first
    have hrest := run_itemTokens (w :: items) (by simp) (v :: before) outer ts
    rw [List.reverse_cons, List.append_assoc, List.singleton_append] at hrest
    rw [itemTokens, List.append_assoc, run_tokens]
    exact hrest

theorem run_memberTokens (members : List (Option String × Json)) (hmembers : members ≠ [])
    (before : List (Option String × Json)) (outer : List Frame) (ts : List Token) :
    run (key before outer) (memberTokens members ++ .closeBrace :: ts)
      = run (put (object (before.reverse ++ members)) outer) ts := by
  match members with
  | [] => exact absurd rfl hmembers
  | [(k, v)] =>
    have hv := run_tokens v (.member before k :: outer) (.closeBrace :: ts)
    rw [memberTokens, List.cons_append, List.cons_append]
    simp only [run, step, hv, put, List.reverse_cons]
  | (k, v) :: m :: members =>
    have hrest := run_memberTokens (m :: members) (by simp) ((k, v) :: before) outer ts
    rw [List.reverse_cons, List.append_assoc, List.singleton_append] at hrest
    have hv := run_tokens v (.member before k :: outer)
      (.comma :: (memberTokens (m :: members) ++ .closeBrace :: ts))
    rw [memberTokens, List.cons_append, List.cons_append, List.append_assoc, List.cons_append]
    simp only [run, step, hv, put]
    exact hrest

end

end Reading

theorem ofTokens?_tokens (v : Json) : ofTokens? v.tokens = some v := by
  have hrun := Reading.run_tokens v [] []
  rw [List.append_nil] at hrun
  rw [ofTokens?, hrun]
  rfl

/-- Every value is read back from its compact text. -/
theorem parse_render (v : Json) : parse v.render = some v := by
  have hlex := lex_tokens v [] Number.ends_nil
  rw [List.append_nil, Token.lex_nil, Option.map_some, List.append_nil] at hlex
  rw [parse, render, String.toList_ofList, hlex]
  exact ofTokens?_tokens v

end Json

end EventSourcing
