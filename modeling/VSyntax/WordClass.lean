import VSyntax.WordChar
import VSyntax.Category
import VSyntax.Fault

/-!
# Word classes

A class of reserved words that share a display category. The words are checked once, when the class
is defined: a class has a name and at least one word, and a word is a non-empty run of word
characters. They are kept in increasing order and without repeats, so that two classes with the same
words are the same class.
-/
namespace VSyntax

/-- A named class of words with its category. -/
structure WordClass where
  name : String
  words : List (List Char)
  category : Category
  deriving DecidableEq, Repr

namespace WordClass

/-- A word put in its place among words in increasing order, unless it is there already. -/
def insertWord (w : List Char) : List (List Char) → List (List Char)
  | [] => [w]
  | x :: xs =>
    if w < x then w :: x :: xs
    else if x < w then x :: insertWord w xs
    else x :: xs

/-- The words of a list in increasing order, each once. -/
def sortWords (ws : List (List Char)) : List (List Char) := ws.foldr insertWord []

/-- One word of the class called `name`, checked. -/
def checkWord (name : String) : Datum → Except Fault (List Char)
  | .text s =>
    if s.toList = [] then .error (.config (.emptyWord name))
    else if s.toList.all isWordChar then .ok s.toList
    else .error (.config (.notWord s name))
  | d => .error (.config (.notText d name))

/-- The class of the given name, words and category; the first unfit word refuses it. -/
def define (name : String) (words : List Datum) (category : Category) : Except Fault WordClass :=
  if name = "" then .error (.config .unnamedClass)
  else do
    let ws ← words.mapM (checkWord name)
    if ws = [] then .error (.config (.emptyClass name))
    else .ok ⟨name, sortWords ws, category⟩

/-- The class of a name and words of any kind. A single text is no collection of words. -/
def ofData (name words : Datum) (category : Category) : Except Fault WordClass :=
  match name with
  | .text n =>
    if n = "" then .error (.config .unnamedClass)
    else
      match words with
      | .text _ => .error (.config (.wordsUncollected n))
      | _ =>
        match words.items? with
        | some items => define n items category
        | none => .error (.noItems words.fullKindName)
  | _ => .error (.config .unnamedClass)

end WordClass

end VSyntax
