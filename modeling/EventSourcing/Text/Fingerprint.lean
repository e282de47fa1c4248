/-!
# Fingerprints

A row of texts is folded into 64 bits, byte after byte of its UTF-8 encoding. The fingerprint does
not see where one text of the row ends and the next begins, and rows of different texts can have
the same fingerprint too.
-/

namespace EventSourcing

namespace Text

/-- Takes one byte into a fingerprint: exclusive or, then a product with a prime. -/
def absorbByte (fingerprint : UInt64) (byte : UInt8) : UInt64 :=
  (fingerprint ^^^ byte.toUInt64) * 0x100000001b3

/-- Takes the bytes of a text into a fingerprint. -/
def absorb (fingerprint : UInt64) (s : String) : UInt64 :=
  (s.toList.flatMap String.utf8EncodeChar).foldl absorbByte fingerprint

/-- The fingerprint of a row of texts. -/
def fingerprint (row : List String) : UInt64 :=
  row.foldl absorb 0xcbf29ce484222325

theorem absorb_append (h : UInt64) (s t : String) : absorb h (s ++ t) = absorb (absorb h s) t := by
  simp [absorb, List.foldl_append]

theorem foldl_absorb (h : UInt64) (row : List String) :
    row.foldl absorb h = absorb h (String.join row) := by
  induction row generalizing h with
  | nil => rfl
  | cons s rest ih => rw [List.foldl_cons, ih, String.join_cons, absorb_append]

/-- A row has the fingerprint of its texts run together. -/
theorem fingerprint_eq_of_join_eq {row row' : List String}
    (h : String.join row = String.join row') : fingerprint row = fingerprint row' := by
  rw [fingerprint, fingerprint, foldl_absorb, foldl_absorb, h]

end Text

end EventSourcing
