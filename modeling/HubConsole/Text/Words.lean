/-! # Quoted words

Splits a text into words at blanks, tabs and newlines. Single quotes keep everything between them;
double quotes keep everything but backslashes before `$`, a backquote, `"`, a backslash or a
newline; outside quotes a backslash keeps the next character. A `#` where a word could begin starts
a comment up to the end of the line. A quote that is never closed is the only error. -/

namespace HubConsole.Text

inductive Quoting where
  | gap
  | gapEscape
  | plain
  | plainEscape
  | single
  | double
  | doubleEscape
  | comment
deriving DecidableEq, Repr

def isWordGap (c : Char) : Bool := c == ' ' || c == '\t' || c == '\n'

/-- Whether a backslash inside double quotes gives up its place before `c`. -/
def escapableInDouble (c : Char) : Bool :=
  c == '$' || c == '\x60' || c == '\x22' || c == '\\'

/-- The words of the rest of the text, where `word` holds the characters of the current one. -/
def wordsFrom : Quoting → List Char → List Char → Option (List (List Char))
  | .gap, _, [] => some []
  | .gap, _, c :: cs =>
    if c = '\x27' then wordsFrom .single [] cs
    else if c = '\x22' then wordsFrom .double [] cs
    else if c = '\\' then wordsFrom .gapEscape [] cs
    else if isWordGap c then wordsFrom .gap [] cs
    else if c = '#' then wordsFrom .comment [] cs
    else wordsFrom .plain [c] cs
  | .gapEscape, _, [] => some [['\\']]
  | .gapEscape, _, c :: cs =>
    if c = '\n' then wordsFrom .gap [] cs else wordsFrom .plain [c] cs
  | .plain, word, [] => some [word]
  | .plain, word, c :: cs =>
    if c = '\x27' then wordsFrom .single word cs
    else if c = '\x22' then wordsFrom .double word cs
    else if c = '\\' then wordsFrom .plainEscape word cs
    else if isWordGap c then (wordsFrom .gap [] cs).map (word :: ·)
    else wordsFrom .plain (word ++ [c]) cs
  | .plainEscape, word, [] => some [word ++ ['\\']]
  | .plainEscape, word, c :: cs =>
    if c = '\n' then wordsFrom .plain word cs else wordsFrom .plain (word ++ [c]) cs
  | .single, _, [] => none
  | .single, word, c :: cs =>
    if c = '\x27' then wordsFrom .plain word cs else wordsFrom .single (word ++ [c]) cs
  | .double, _, [] => none
  | .double, word, c :: cs =>
    if c = '\x22' then wordsFrom .plain word cs
    else if c = '\\' then wordsFrom .doubleEscape word cs
    else wordsFrom .double (word ++ [c]) cs
  | .doubleEscape, _, [] => none
  | .doubleEscape, word, c :: cs =>
    if c = '\n' then wordsFrom .double word cs
    else if escapableInDouble c then wordsFrom .double (word ++ [c]) cs
    else wordsFrom .double (word ++ ['\\', c]) cs
  | .comment, _, [] => some []
  | .comment, _, c :: cs =>
    if c = '\n' then wordsFrom .gap [] cs else wordsFrom .comment [] cs

/-- The words of a text, or `none` if a quote is left open. -/
def quotedWords? (s : String) : Option (List String) :=
  (wordsFrom .gap [] s.toList).map fun ws => ws.map String.ofList

/-- The text in single quotes, each quote inside it written as quote, backslash, quote, quote. -/
def quoteWord : List Char → List Char
  | cs => '\x27' :: cs.flatMap (fun c => if c = '\x27' then ['\x27', '\\', '\x27', '\x27'] else [c])
      ++ ['\x27']

end HubConsole.Text
