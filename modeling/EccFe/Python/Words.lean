/-
EccFe.Python.Words — `shlex.split(text)` with `comments=False`, and text that is read with
`errors="replace"`.

The scanner is that of `EccFe.Python.Shlex` without comments: a `#` is a character like others.
-/
import EccFe.Python.Path
import EccFe.Python.Shlex

namespace EccFe.Python

/-- `token` is the text of the token being read. There is no comment state. -/
def wordsScan : ShlexState → List Char → List Char → Option (List (List Char))
  | .blank, _, [] | .comment, _, [] => some []
  | .word, token, [] => some [token]
  | .quote _, _, [] | .escape _, _, [] => none
  | .blank, token, c :: rest | .comment, token, c :: rest =>
      if isShlexSpace c then wordsScan .blank token rest
      else if c = '\\' then wordsScan (.escape none) [] rest
      else if isQuote c then wordsScan (.quote c) [] rest
      else wordsScan .word [c] rest
  | .quote q, token, c :: rest =>
      if c = q then wordsScan .word token rest
      else if c = '\\' ∧ q = '"' then wordsScan (.escape (some q)) token rest
      else wordsScan (.quote q) (token ++ [c]) rest
  | .escape inQuote, token, c :: rest =>
      -- inside quotes only the quote and the backslash itself can be escaped
      let kept := if inQuote.isSome ∧ c ≠ '\\' ∧ some c ≠ inQuote then ['\\'] else []
      wordsScan (.afterEscape inQuote) (token ++ kept ++ [c]) rest
  | .word, token, c :: rest =>
      if isShlexSpace c then (wordsScan .blank [] rest).map (token :: ·)
      else if isQuote c then wordsScan (.quote c) token rest
      else if c = '\\' then wordsScan (.escape none) token rest
      else wordsScan .word (token ++ [c]) rest

/-- `shlex.split(text)`; `none` is its `ValueError`. -/
def shlexWords (text : String) : Option (List String) :=
  (wordsScan .blank [] text.toList).map fun words => words.map String.ofList

/-- How many bytes of a malformed start one replacement character stands for. -/
def malformedLength (b : UInt8) (rest : List UInt8) : Nat :=
  let cont (x : UInt8) : Bool := 0x80 ≤ x && x < 0xC0
  -- the second bytes that leave a form of three or four bytes possible
  let second (x : UInt8) : Bool :=
    cont x && (b != 0xE0 || 0xA0 ≤ x) && (b != 0xED || x < 0xA0) && (b != 0xF0 || 0x90 ≤ x) &&
      (b != 0xF4 || x < 0x90)
  if 0xE0 ≤ b && b < 0xF5 then
    match rest with
    | x :: y :: _ => if second x then (if 0xF0 ≤ b && cont y then 3 else 2) else 1
    | [x] => if second x then 2 else 1
    | [] => 1
  else 1

/-- `bytes.decode("utf-8", errors="replace")`; `skip` counts the bytes still to pass. -/
def decodeReplaceFrom : Nat → List UInt8 → List Char
  | _, [] => []
  | skip + 1, _ :: rest => decodeReplaceFrom skip rest
  | 0, b :: rest =>
      match utf8Head b rest with
      | some (c, k) => c :: decodeReplaceFrom k rest
      | none => '\uFFFD' :: decodeReplaceFrom (malformedLength b rest - 1) rest

/-- A text file read with `errors="replace"`. -/
def readTextReplace (bytes : List UInt8) : String :=
  String.ofList (universalNewlines (decodeReplaceFrom 0 bytes))

end EccFe.Python
