import LedgerClient.Fault
import LedgerClient.Text.Word

namespace LedgerClient

/-- Whether a character is a lower-case letter of `rst` or `stream` up to simple case folding:
besides the capital letter, the long s folds to `s`. -/
def foldsTo (letter c : Char) : Bool :=
  c == letter || c == letter.toUpper || (letter == 's' && c == 'ſ')

/-- The rest of a text after a word in any letter case. -/
def afterWord? : List Char → List Char → Option (List Char)
  | [], text => some text
  | letter :: word, c :: text => if foldsTo letter c then afterWord? word text else none
  | _ :: _, [] => none

/-- A character that may stand between the two words: neither a digit nor a letter from `a` to
`z`, nor one that folds to such a letter. -/
def isJoiner (c : Char) : Bool :=
  !(c.isDigit || c.isAlpha || c == 'ſ' || c == '\u212A')

/-- No word runs on into the text. -/
def endsWord : List Char → Bool
  | [] => true
  | c :: _ => !isWordChar c

/-- `rst` and `stream` with one joiner between them at the head of a text, and no word going on
after them. -/
def startsWithReset (text : List Char) : Bool :=
  match afterWord? ['r', 's', 't'] text with
  | some (c :: rest) =>
    isJoiner c && ((afterWord? ['s', 't', 'r', 'e', 'a', 'm'] rest).any endsWord)
  | _ => false

/-- Looks for a reset in a text, the character before which is given. -/
def findsReset : Option Char → List Char → Bool
  | _, [] => false
  | before, c :: rest =>
    (!before.any isWordChar && startsWithReset (c :: rest)) || findsReset (some c) rest

def isStreamReset (message : String) : Bool :=
  findsReset none message.toList

/-- Whether the next attempt may do better. An internal fault is transient only if it reports a
stream reset. -/
def Fault.isTransient (f : Fault) : Bool :=
  match f.code with
  | .resourceExhausted | .unavailable => true
  | .internal => isStreamReset f.message
  | _ => false

end LedgerClient
