import EventSourcing.Json.Number

/-!
# Tokens of JSON

A text is a row of tokens with blanks between them. A string token holds its text, or nothing when
its escapes spell half of a surrogate pair: such a string is well formed but is no text.

* `Piece.scan` splits the inside of a string into characters and escaped code units;
* `Piece.text?` joins the code units to characters;
* `Token.lex` reads the whole row, and every step takes at least one character.
-/

namespace EventSourcing

namespace Json

/-- A part of a string: a character, or a code unit spelled in hexadecimal. -/
inductive Piece where
  | char (c : Char)
  | unit (n : Nat)
deriving DecidableEq

namespace Piece

/-- The value of four hexadecimal digits. -/
def unitOf (a b c d : Char) : Option Nat := do
  let a ← Text.hexDigit? a
  let b ← Text.hexDigit? b
  let c ← Text.hexDigit? c
  let d ← Text.hexDigit? d
  return ((a * 16 + b) * 16 + c) * 16 + d

/-- The character that a letter behind a backslash stands for. -/
def escaped? : Char → Option Char
  | '"' => some '"'
  | '\\' => some '\\'
  | '/' => some '/'
  | 'b' => some '\x08'
  | 'f' => some '\x0c'
  | 'n' => some '\n'
  | 'r' => some '\r'
  | 't' => some '\t'
  | _ => none

/-- The pieces up to the closing quote, and what follows it. -/
def scan : List Char → Option (List Piece × List Char)
  | [] => none
  | '"' :: rest => some ([], rest)
  | '\\' :: 'u' :: a :: b :: c :: d :: rest =>
    match unitOf a b c d, scan rest with
    | some n, some (pieces, rest) => some (.unit n :: pieces, rest)
    | _, _ => none
  | '\\' :: e :: rest =>
    match escaped? e, scan rest with
    | some c, some (pieces, rest) => some (.char c :: pieces, rest)
    | _, _ => none
  | c :: rest =>
    if c < ' ' then none
    else match scan rest with
      | some (pieces, rest) => some (.char c :: pieces, rest)
      | none => none

theorem scan_length {cs rest : List Char} {pieces : List Piece}
    (h : scan cs = some (pieces, rest)) : rest.length < cs.length := by
  fun_induction scan cs generalizing pieces rest with
  | case1 => simp at h
  | case2 => simp_all
  | case3 _ _ _ _ _ _ _ _ hs _ ih =>
    simp only [Option.some.injEq, Prod.mk.injEq] at h
    have := ih hs
    simp only [← h.2, List.length_cons]
    omega
  | case4 => simp at h
  | case5 _ _ _ _ _ _ hs _ ih =>
    simp only [Option.some.injEq, Prod.mk.injEq] at h
    have := ih hs
    simp only [← h.2, List.length_cons]
    omega
  | case6 => simp at h
  | case7 => simp at h
  | case8 _ _ _ _ _ _ _ _ hs ih =>
    simp only [Option.some.injEq, Prod.mk.injEq] at h
    have := ih hs
    simp only [← h.2, List.length_cons]
    omega
  | case9 => simp at h

def isHighSurrogate (n : Nat) : Bool := 0xd800 ≤ n && n < 0xdc00

def isLowSurrogate (n : Nat) : Bool := 0xdc00 ≤ n && n < 0xe000

/-- The text of a string: a high surrogate and the low one behind it are one character, and
neither stands alone. -/
def text? : List Piece → Option (List Char)
  | [] => some []
  | .char c :: rest => (text? rest).map (c :: ·)
  | .unit n :: .unit m :: rest =>
    if isHighSurrogate n then
      if isLowSurrogate m then
        (text? rest).map (Char.ofNat (0x10000 + (n - 0xd800) * 0x400 + (m - 0xdc00)) :: ·)
      else none
    else if isLowSurrogate n then none
    else (text? (.unit m :: rest)).map (Char.ofNat n :: ·)
  | .unit n :: rest =>
    if isHighSurrogate n || isLowSurrogate n then none
    else (text? rest).map (Char.ofNat n :: ·)

end Piece

inductive Token where
  | openBrace
  | closeBrace
  | openBracket
  | closeBracket
  | colon
  | comma
  | null
  | bool (b : Bool)
  | number (n : Number)
  | string (text : Option String)
deriving DecidableEq

namespace Token

/-- Blanks between tokens. -/
def isSpace (c : Char) : Bool :=
  c = ' ' || c = '\t' || c = '\n' || c = '\r'

/-- The token at the front of a text that starts with no blank. -/
def next? : List Char → Option (Token × List Char)
  | '\x7b' :: rest => some (openBrace, rest)
  | '\x7d' :: rest => some (closeBrace, rest)
  | '[' :: rest => some (openBracket, rest)
  | ']' :: rest => some (closeBracket, rest)
  | ':' :: rest => some (colon, rest)
  | ',' :: rest => some (comma, rest)
  | 'n' :: 'u' :: 'l' :: 'l' :: rest => some (null, rest)
  | 't' :: 'r' :: 'u' :: 'e' :: rest => some (bool true, rest)
  | 'f' :: 'a' :: 'l' :: 's' :: 'e' :: rest => some (bool false, rest)
  | '"' :: rest =>
    match Piece.scan rest with
    | some (pieces, rest) => some (string ((Piece.text? pieces).map String.ofList), rest)
    | none => none
  | cs =>
    match Number.lex cs with
    | some (n, rest) => some (number n, rest)
    | none => none

/-- A token takes at least one character. -/
theorem next?_length {cs rest : List Char} {t : Token} (h : next? cs = some (t, rest)) :
    rest.length < cs.length := by
  unfold next? at h
  split at h
  case h_10 cs =>
    split at h
    · next hs =>
      simp only [Option.some.injEq, Prod.mk.injEq] at h
      have := Piece.scan_length hs
      simp only [← h.2, List.length_cons]
      omega
    · simp at h
  case h_11 =>
    split at h
    · next hs =>
      simp only [Option.some.injEq, Prod.mk.injEq] at h
      exact h.2 ▸ Number.lex_length hs
    · simp at h
  all_goals
    simp only [Option.some.injEq, Prod.mk.injEq] at h
    simp only [← h.2, List.length_cons]
    omega

/-- The tokens of a text. -/
def lex (cs : List Char) : Option (List Token) :=
  match _hc : cs with
  | [] => some []
  | c :: rest =>
    if isSpace c then lex rest
    else
      match _h : next? cs with
      | some (t, rest) => (lex rest).map (t :: ·)
      | none => none
termination_by cs.length
decreasing_by
  · simp
  · have := next?_length _h
    subst _hc
    exact this

/-! ## Text -/

/-- How a character stands inside a string. -/
def escape (c : Char) : List Char :=
  if c = '"' then ['\\', '"']
  else if c = '\\' then ['\\', '\\']
  else if c = '\x08' then ['\\', 'b']
  else if c = '\x0c' then ['\\', 'f']
  else if c = '\n' then ['\\', 'n']
  else if c = '\r' then ['\\', 'r']
  else if c = '\t' then ['\\', 't']
  else if c < ' ' then
    ['\\', 'u', '0', '0', Nat.digitChar (c.toNat / 16), Nat.digitChar (c.toNat % 16)]
  else [c]

/-- The written form of a token. A string that is no text is written as half a pair. -/
def text : Token → List Char
  | openBrace => ['\x7b']
  | closeBrace => ['\x7d']
  | openBracket => ['[']
  | closeBracket => [']']
  | colon => [':']
  | comma => [',']
  | null => ['n', 'u', 'l', 'l']
  | bool true => ['t', 'r', 'u', 'e']
  | bool false => ['f', 'a', 'l', 's', 'e']
  | number n => n.text
  | string (some s) => '"' :: (s.toList.flatMap escape ++ ['"'])
  | string none => ['"', '\\', 'u', 'd', '8', '0', '0', '"']

end Token

end Json

end EventSourcing
