import NodeDescriptor.Text.LetterCase
import NodeDescriptor.Text.Split

/-!
# Display names

A display name is derived from an identifier such as `baseColor` or `max_value`: the
identifier is cut into words, each word's first character is put in upper case, and the words
are joined by spaces. A word ends at an underscore, which is dropped, and before a character
with the Uppercase property; runs of underscores make no empty words.
-/

set_option autoImplicit false

namespace NodeDescriptor.Text

/-- A word as a list of words: none when it is empty. -/
def wordIfAny (word : List Char) : List (List Char) :=
  if word.isEmpty then [] else [word]

/-- The words of an identifier, of which `pending` is the one begun so far. -/
def nameWordsFrom (pending : List Char) : List Char → List (List Char)
  | [] => wordIfAny pending
  | c :: rest =>
      if c = '_' then wordIfAny pending ++ nameWordsFrom [] rest
      else if isUppercase c then wordIfAny pending ++ nameWordsFrom [c] rest
      else nameWordsFrom (pending ++ [c]) rest

/-- The words of an identifier. -/
def nameWords (name : List Char) : List (List Char) := nameWordsFrom [] name

/-- The word with its first character in upper case. -/
def capitalized : List Char → List Char
  | [] => []
  | c :: rest => capital c ++ rest

def displayName (name : String) : String :=
  joined " " ((nameWords name.toList).map fun word => String.ofList (capitalized word))

end NodeDescriptor.Text
