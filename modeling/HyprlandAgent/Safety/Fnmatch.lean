import Mathlib.Data.List.Basic

-- `fnmatch.fnmatch` on a POSIX system, where case is left as it is: the pattern
-- is translated once, and the whole name has to match.
namespace HyprlandAgent.Fnmatch

-- A bracket keeps its characters, and the ranges as pairs of ends.
inductive Token where
  | star
  | any
  | one (char : Char)
  | bracket (negated : Bool) (chars : List Char) (ranges : List (Char × Char))
  deriving DecidableEq, Repr

-- The text between the brackets, cut at each hyphen that makes a range. The
-- first `skip` characters of a piece are taken as they are.
def pieces : Nat → List Char → List Char → List (List Char)
  | _,piece,[] => [piece.reverse]
  | 0,piece,'-' :: rest => piece.reverse :: pieces 2 [] rest
  | skip,piece,char :: rest => pieces (skip - 1) (char :: piece) rest

-- A hyphen at the very end stands for itself.
def closeHyphen : List (List Char) → List (List Char)
  | [piece,[]] => [piece ++ ['-']]
  | piece :: rest => piece :: closeHyphen rest
  | [] => []

-- From the last range to the first: an empty range is taken out with its ends,
-- and what is left of the two pieces becomes one.
def dropEmptyRanges : List (List Char) → List (List Char)
  | [] => []
  | piece :: rest =>
    match dropEmptyRanges rest with
    | [] => [piece]
    | next :: others =>
      match piece.getLast?,next.head? with
      | some low,some high =>
        if high < low then (piece.dropLast ++ next.tail) :: others else piece :: next :: others
      | _,_ => piece :: next :: others

def rangesOf : List (List Char) → List (Char × Char)
  | piece :: next :: others =>
    match piece.getLast?,next.head? with
    | some low,some high => (low,high) :: rangesOf (next :: others)
    | _,_ => rangesOf (next :: others)
  | _ => []

-- The sign of negation is looked for after the empty ranges are out, so one that
-- only then comes first negates as well.
def bracketOf (stuff : List Char) : Token :=
  let skip := if stuff.head? = some '!' then 2 else 1
  let kept := dropEmptyRanges (closeHyphen (pieces skip [] stuff))
  match kept.flatten with
  | '!' :: chars => .bracket true chars (rangesOf kept)
  | chars => .bracket false chars (rangesOf kept)

-- What stands before the closing bracket, which may not be the first character.
def untilClose (text : List Char) : Option (List Char) :=
  let lead := if text.head? = some '!' then 1 else 0
  let lead := if (text.drop lead).head? = some ']' then lead + 1 else lead
  match (text.drop lead).span (· != ']') with
  | (inside,_ :: _) => some (text.take lead ++ inside)
  | (_,[]) => none

-- `skip` characters were already read, as part of a bracket.
def translate : Nat → List Char → List Token
  | _,[] => []
  | skip + 1,_ :: rest => translate skip rest
  | 0,'*' :: rest => .star :: translate 0 rest
  | 0,'?' :: rest => .any :: translate 0 rest
  | 0,'[' :: rest =>
    match untilClose rest with
    | some stuff => bracketOf stuff :: translate (stuff.length + 1) rest
    | none => .one '[' :: translate 0 rest
  | 0,char :: rest => .one char :: translate 0 rest

def Token.admits : Token → Char → Bool
  | .star,_ => false
  | .any,_ => true
  | .one wanted,char => wanted == char
  | .bracket negated chars ranges,char =>
    negated != (chars.contains char || ranges.any fun range => range.1 ≤ char && char ≤ range.2)

def accepts : List Token → List Char → Bool
  | [],text => text.isEmpty
  | .star :: rest,text => text.tails.any (accepts rest)
  | token :: rest,char :: text => token.admits char && accepts rest text
  | _ :: _,[] => false

def fnmatch (name pat : String) : Bool := accepts (translate 0 pat.toList) name.toList

example : fnmatch "org.mozilla.firefox" "org.*fire[!g-z]ox" = true := by decide

end HyprlandAgent.Fnmatch
