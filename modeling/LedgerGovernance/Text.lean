/-! Text is a list of characters, so that every reader and writer of the library
is a plain recursion on the data it reads. -/

namespace LedgerGovernance

abbrev Text := List Char

namespace Text

/-- The size of a text in bytes when it is stored as UTF-8. -/
def utf8Size (text : Text) : Nat :=
  text.foldr (fun character size => character.utf8Size + size) 0

/-- An ASCII letter, a character outside ASCII, and one outside the basic
plane take one, two and four bytes. -/
example : utf8Size ['a', 'é', '😀'] = 7 := by decide

@[simp] theorem utf8Size_nil : utf8Size [] = 0 := rfl

@[simp] theorem utf8Size_cons (character : Char) (rest : Text) :
    utf8Size (character :: rest) = character.utf8Size + utf8Size rest := rfl

@[simp] theorem utf8Size_append (left right : Text) :
    utf8Size (left ++ right) = utf8Size left + utf8Size right := by
  induction left with
  | nil => simp
  | cons head tail induction => simp [induction, Nat.add_assoc]

/-- What is left of `text` once `stem` is taken off its front, if it starts
with `stem` at all. -/
def withoutStem? : (stem text : Text) → Option Text
  | [], text => some text
  | _ :: _, [] => none
  | expected :: stem, found :: text =>
      if expected = found then withoutStem? stem text else none

@[simp] theorem withoutStem?_append (stem rest : Text) :
    withoutStem? stem (stem ++ rest) = some rest := by
  induction stem with
  | nil => simp [withoutStem?]
  | cons head tail induction => simp [withoutStem?, induction]

theorem eq_append_of_withoutStem? {stem text rest : Text}
    (found : withoutStem? stem text = some rest) : text = stem ++ rest := by
  induction stem generalizing text with
  | nil => simpa [withoutStem?] using found
  | cons head tail induction =>
      cases text with
      | nil => simp [withoutStem?] at found
      | cons first text =>
          by_cases equal : head = first
          · subst head
            simp only [withoutStem?, if_true] at found
            simp [induction found]
          · simp [withoutStem?, equal] at found

/-- What is left of `text` once `ending` is taken off its back, if it ends
with `ending` at all. -/
def withoutEnding? (ending text : Text) : Option Text :=
  (withoutStem? ending.reverse text.reverse).map List.reverse

/-- White space trimmed off both ends, for a given notion of white space. -/
def trim (isBlank : Char → Bool) (text : Text) : Text :=
  ((text.dropWhile isBlank).reverse.dropWhile isBlank).reverse

end Text

end LedgerGovernance
