import EventSourcing.Json.Token

/-!
# JSON

Values, their compact text, and the reader.

The reader is a machine over the tokens: what it expects next, and the frames of the arrays and
objects that are still open. It takes texts of any depth.
-/

namespace EventSourcing

inductive Json where
  | null
  | bool (b : Bool)
  | number (n : Json.Number)
  /-- A string; it is no text when its escapes spell half of a surrogate pair. -/
  | string (text : Option String)
  | array (items : List Json)
  /-- The members in the order of the text; a key may come twice. -/
  | object (members : List (Option String × Json))

namespace Json

def text (s : String) : Json := string (some s)

def int (n : Int) : Json := number (.ofInt n)

def nat (n : Nat) : Json := number (.ofNat n)

/-- A binary64 number; one that is not finite is null. -/
def binary64 (x : Binary64) : Json :=
  match Number.ofBinary64? x with
  | some n => number n
  | none => null

/-- An object with the given fields. -/
def record (fields : List (String × Json)) : Json :=
  object (fields.map fun field => (some field.1, field.2))

/-- The value, or null. -/
def ofOption {α : Type} (write : α → Json) : Option α → Json
  | none => null
  | some a => write a

/-! ## Writing -/

mutual

/-- The tokens of a value. -/
def tokens : Json → List Token
  | null => [.null]
  | bool b => [.bool b]
  | number n => [.number n]
  | string s => [.string s]
  | array items => .openBracket :: (itemTokens items ++ [.closeBracket])
  | object members => .openBrace :: (memberTokens members ++ [.closeBrace])

/-- The tokens of the items of an array, with commas between them. -/
def itemTokens : List Json → List Token
  | [] => []
  | [v] => tokens v
  | v :: w :: rest => tokens v ++ .comma :: itemTokens (w :: rest)

/-- The tokens of the members of an object, with commas between them. -/
def memberTokens : List (Option String × Json) → List Token
  | [] => []
  | [(k, v)] => .string k :: .colon :: tokens v
  | (k, v) :: m :: rest => .string k :: .colon :: (tokens v ++ .comma :: memberTokens (m :: rest))

end

/-- The compact text of a value. -/
def render (v : Json) : String :=
  String.ofList (v.tokens.flatMap Token.text)

/-! ## Reading -/

/-- An array or an object that is still open. What came before is held latest first. -/
inductive Frame where
  | items (before : List Json)
  | member (before : List (Option String × Json)) (key : Option String)

/-- What the reader expects next, inside the given open frames. -/
inductive Reading where
  | value (outer : List Frame)
  | firstItem (outer : List Frame)
  | afterItem (items : List Json) (outer : List Frame)
  | firstKey (outer : List Frame)
  | key (members : List (Option String × Json)) (outer : List Frame)
  | colon (members : List (Option String × Json)) (key : Option String) (outer : List Frame)
  | afterMember (members : List (Option String × Json)) (outer : List Frame)
  | done (v : Json)

namespace Reading

/-- A value is complete: it goes into the innermost open frame. -/
def put (v : Json) : List Frame → Reading
  | [] => done v
  | .items before :: outer => afterItem (v :: before) outer
  | .member before k :: outer => afterMember ((k, v) :: before) outer

/-- A token where a value is expected. -/
def start (outer : List Frame) : Token → Option Reading
  | .null => some (put null outer)
  | .bool b => some (put (bool b) outer)
  | .number n => some (put (number n) outer)
  | .string s => some (put (string s) outer)
  | .openBracket => some (firstItem outer)
  | .openBrace => some (firstKey outer)
  | _ => none

/-- One token. -/
def step : Reading → Token → Option Reading
  | value outer, t => start outer t
  | firstItem outer, .closeBracket => some (put (array []) outer)
  | firstItem outer, t => start (.items [] :: outer) t
  | afterItem items outer, .comma => some (value (.items items :: outer))
  | afterItem items outer, .closeBracket => some (put (array items.reverse) outer)
  | firstKey outer, .closeBrace => some (put (object []) outer)
  | firstKey outer, .string k => some (colon [] k outer)
  | key members outer, .string k => some (colon members k outer)
  | colon members k outer, .colon => some (value (.member members k :: outer))
  | afterMember members outer, .comma => some (key members outer)
  | afterMember members outer, .closeBrace => some (put (object members.reverse) outer)
  | _, _ => none

/-- A row of tokens. -/
def run : Reading → List Token → Option Reading
  | r, [] => some r
  | r, t :: ts =>
    match step r t with
    | some r => run r ts
    | none => none

end Reading

/-- The value that a row of tokens writes. -/
def ofTokens? (ts : List Token) : Option Json :=
  match (Reading.value []).run ts with
  | some (.done v) => some v
  | _ => none

/-- The value of a text; only blanks may stand around it. -/
def parse (s : String) : Option Json :=
  match Token.lex s.toList with
  | some ts => ofTokens? ts
  | none => none

end Json

end EventSourcing
