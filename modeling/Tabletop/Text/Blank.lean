/-!
# Blanks

The characters with the Unicode property White_Space, twenty-five of them, and what is done with
them: trimming a text and splitting it into words.
-/

namespace Tabletop

/-- The White_Space characters as closed ranges of code points, ascending and apart. -/
def blankRanges : List (Nat × Nat) :=
  [(0x09, 0x0D), (0x20, 0x20), (0x85, 0x85), (0xA0, 0xA0), (0x1680, 0x1680), (0x2000, 0x200A),
    (0x2028, 0x2029), (0x202F, 0x202F), (0x205F, 0x205F), (0x3000, 0x3000)]

/-- Whether a character is a blank. -/
def isBlank (c : Char) : Bool := blankRanges.any fun r ↦ r.1 ≤ c.toNat && c.toNat ≤ r.2

/-- The text without blanks at either end. -/
def trim (s : String) : String :=
  String.ofList ((s.toList.dropWhile isBlank).reverse.dropWhile isBlank).reverse

/-- The words of a text: its longest stretches without blanks. -/
def words (s : String) : List String := scan [] s.toList
where
  /-- Scans on with the characters of the open word, last one first. -/
  scan (word : List Char) : List Char → List String
    | [] => close word
    | c :: cs => if isBlank c then close word ++ scan [] cs else scan (c :: word) cs
  /-- The open word, if it has begun. -/
  close (word : List Char) : List String :=
    if word.isEmpty then [] else [String.ofList word.reverse]

end Tabletop
