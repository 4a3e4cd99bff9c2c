import Mathlib.Logic.Basic

-- POSIX shell words: `shlex.split`, without comments, over the characters of a text.
namespace Shlex

def whitespace : List Char := [' ','\t','\r','\n']

def quotes : List Char := ['\x27','\x22']

def backslash : Char := '\x5c'

def escapedQuotes : List Char := ['\x22']

-- Where an escape goes back to: a word, or the quotes it stands in.
inductive Mode where
  | blank
  | word
  | quote (mark : Char)
  | escape (back : Option Char)
  deriving DecidableEq, Repr

inductive Failure where
  | noClosingQuotation
  | noEscapedCharacter
  deriving DecidableEq, Repr

def finished (token : List Char) (quoted : Bool) : List (List Char) :=
  if token ≠ [] ∨ quoted then [token] else []

def escaped (back : Option Char) (char : Char) : List Char :=
  match back with
  | none => [char]
  | some mark => if char ≠ backslash ∧ char ≠ mark then [backslash,char] else [char]

-- `read_token` until the end of the text.
def tokens : Mode → List Char → Bool → List Char → Except Failure (List (List Char))
  | .blank,token,quoted,[] => .ok (finished token quoted)
  | .word,token,quoted,[] => .ok (finished token quoted)
  | .quote _,_,_,[] => .error .noClosingQuotation
  | .escape _,_,_,[] => .error .noEscapedCharacter
  | .blank,token,quoted,char :: rest =>
    if char ∈ whitespace then (tokens .blank [] false rest).map (finished token quoted ++ ·)
    else if char = backslash then tokens (.escape none) token quoted rest
    else if char ∈ quotes then tokens (.quote char) token quoted rest
    else tokens .word [char] quoted rest
  | .quote mark,token,_,char :: rest =>
    if char = mark then tokens .word token true rest
    else if char = backslash ∧ mark ∈ escapedQuotes then tokens (.escape (some mark)) token true rest
    else tokens (.quote mark) (token ++ [char]) true rest
  | .escape back,token,quoted,char :: rest =>
    tokens (match back with
      | none => .word
      | some mark => .quote mark) (token ++ escaped back char) quoted rest
  | .word,token,quoted,char :: rest =>
    if char ∈ whitespace then (tokens .blank [] false rest).map (finished token quoted ++ ·)
    else if char ∈ quotes then tokens (.quote char) token quoted rest
    else if char = backslash then tokens (.escape none) token quoted rest
    else tokens .word (token ++ [char]) quoted rest

def split (text : List Char) : Except Failure (List (List Char)) := tokens .blank [] false text

end Shlex
