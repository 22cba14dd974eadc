import NodeDescriptor.Text.Blank

/-!
# Splitting and joining

`splitAll` cuts a text at every occurrence of a separator, `splitFirst?` at the first one.
`commaParts` reads a comma-separated list: its parts are trimmed and the empty ones dropped.
`joined` puts a separator between texts.
-/

set_option autoImplicit false

namespace NodeDescriptor.Text

/-- The pieces between the occurrences of `separator`: always one more than there are. -/
def splitAll (separator : Char) : List Char → List (List Char)
  | [] => [[]]
  | c :: rest =>
      if c = separator then [] :: splitAll separator rest
      else
        match splitAll separator rest with
        | [] => [[c]]
        | piece :: pieces => (c :: piece) :: pieces

/-- What stands before and after the first occurrence of `separator`. -/
def splitFirst? (separator : Char) : List Char → Option (List Char × List Char)
  | [] => none
  | c :: rest =>
      if c = separator then some ([], rest)
      else (splitFirst? separator rest).map fun (before, after) => (c :: before, after)

/-- The trimmed parts of a comma-separated text that are not empty. -/
def commaParts (text : String) : List String :=
  (((splitAll ',' text.toList).map trimmed).filter fun part => !part.isEmpty).map String.ofList

/-- The texts one after another with `separator` between them. -/
def joined (separator : String) : List String → String
  | [] => ""
  | [text] => text
  | text :: rest => text ++ separator ++ joined separator rest

end NodeDescriptor.Text
