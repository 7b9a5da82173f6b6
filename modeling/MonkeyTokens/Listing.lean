import MonkeyTokens.Lexeme

/-!
# Listings

A listing shows lexemes one to an entry, each entry on a line of its own, up to
the first end of text.  Entries show spans on request.

Main results:

- Theorem `join_listingPieces`: the pieces in which a listing is written make up the
  listing.
- Theorem `listed_append`: lexemes without an end of text are all listed, whatever
  follows them.
-/

namespace MonkeyTokens

/-- The lexemes that are listed: those before the first end of text. -/
def listed (lexemes : List Lexeme) : List Lexeme :=
  lexemes.takeWhile (fun l => !l.isEof)

/-- The entry of a lexeme, with the line feed that ends it. -/
def Lexeme.entry (showSpans : Bool) (l : Lexeme) : String :=
  if showSpans then l.token.render ++ " " ++ l.span.render ++ "\n"
  else l.token.render ++ "\n"

/-- The pieces in which the entry of a lexeme is written. -/
def Lexeme.pieces (showSpans : Bool) (l : Lexeme) : List String :=
  if showSpans then l.token.pieces ++ (" " :: l.span.pieces) ++ ["\n"]
  else l.token.pieces ++ ["\n"]

/-- The entries of some lexemes. -/
def entries (showSpans : Bool) (lexemes : List Lexeme) : List String :=
  (listed lexemes).map (Lexeme.entry showSpans)

/-- The listing of some lexemes. -/
def listing (showSpans : Bool) (lexemes : List Lexeme) : String :=
  String.join (entries showSpans lexemes)

/-! ## Listings in pieces -/

/-- The pieces in which the listing of some lexemes is written. -/
def listingPieces (showSpans : Bool) (lexemes : List Lexeme) : List String :=
  (listed lexemes).flatMap (Lexeme.pieces showSpans)

theorem Lexeme.join_pieces (showSpans : Bool) (l : Lexeme) :
    String.join (l.pieces showSpans) = l.entry showSpans := by
  cases showSpans <;>
    simp [pieces, entry, Token.join_pieces, Span.join_pieces, String.append_assoc]

/-- The pieces in which a listing is written make up the listing. -/
theorem join_listingPieces (showSpans : Bool) (lexemes : List Lexeme) :
    String.join (listingPieces showSpans lexemes) = listing showSpans lexemes := by
  unfold listingPieces listing entries
  induction listed lexemes with
  | nil => rfl
  | cons l later ih =>
    rw [List.flatMap_cons, String.join_append, Lexeme.join_pieces, ih, List.map_cons,
      String.join_cons]

/-! ## Listings and the end of text -/

/-- Lexemes without an end of text are all listed, whatever follows them. -/
theorem listed_append {a : List Lexeme} (h : ∀ l ∈ a, l.isEof = false) (b : List Lexeme) :
    listed (a ++ b) = a ++ listed b :=
  List.takeWhile_append_of_pos (by simpa using h)

end MonkeyTokens
