import Marginalia.Regex.CharSet

/-! # Regular expressions

    What a regular expression matches, and which of several matches it prefers:

    * **`Regex`**: the expressions. Operators that repeat come in a greedy and a lazy
      form.
    * **`Place`**: a place in a text, with the groups that matched on the way there.
    * **`Regex.ends`**: the places at which a match that begins at a given place can
      end, the preferred one first and no place twice. What follows an expression
      depends only on the place where it ended, so later ways to reach a place are
      not needed, and the number of places stays below the length of the text.
    * **`Regex.matchAt?`**: the preferred match at a place. -/

namespace Marginalia

/-! ## Section 1: Expressions -/

/-- Conditions on a place between two words or inside one. -/
inductive WordEdge where
  | boundary
  | noBoundary
  | start
  | finish
  | startHalf
  | finishHalf
deriving DecidableEq, Repr

/-- Conditions on a place, which match without taking a character. -/
inductive Look where
  | textStart
  | textEnd
  | lineStart
  | lineEnd
  /-- Like `lineStart`, where a carriage return may end a line too. -/
  | anyLineStart
  /-- Like `lineEnd`, where a carriage return may end a line too. -/
  | anyLineEnd
  | word (edge : WordEdge) (ascii : Bool)
deriving DecidableEq, Repr

/-- Regular expressions. -/
inductive Regex where
  /-- Matches the empty text. -/
  | empty
  /-- Matches one character of a set. -/
  | set (s : CharSet)
  /-- Matches the empty text where the condition holds. -/
  | look (l : Look)
  /-- Remembers what `r` matched under a number. -/
  | group (index : Nat) (r : Regex)
  /-- Matches `r`, then `s`. -/
  | seq (r s : Regex)
  /-- Matches `r`, or else `s`. -/
  | alt (r s : Regex)
  /-- Matches `r` at least `min` times and at most `max` times. -/
  | rep (greedy : Bool) (min : Nat) (max : Option Nat) (r : Regex)

/-! ## Section 2: Places -/

/-- A place in a text. -/
structure Place where
  /-- The number of characters before it. -/
  offset : Nat
  /-- The character before it. -/
  prev   : Option Char
  /-- The text after it. -/
  rest   : List Char
  /-- What groups matched, the latest first. -/
  groups : List (Nat × List Char)
deriving DecidableEq, Repr

namespace Place

/-- The beginning of a text. -/
def first (s : List Char) : Place := ⟨0, none, s, []⟩

/-- The place after the next character `c`. -/
def advance (p : Place) (c : Char) (rest : List Char) : Place :=
  { p with offset := p.offset + 1, prev := some c, rest }

/-- What a group matched last. -/
def group? (p : Place) (index : Nat) : Option (List Char) :=
  p.groups.lookup index

/-- Keeps the first of several ways to the same place. -/
def distinct (ps : List Place) : List Place :=
  (ps.foldl (fun (seen, kept) p =>
    if seen.contains p.offset then (seen, kept) else (p.offset :: seen, p :: kept))
    (([] : List Nat), ([] : List Place))).2.reverse

end Place

/-- Whether a condition on words holds between two characters. -/
def WordEdge.holds (isWord : Char → Bool) (prev next : Option Char) : WordEdge → Bool
  | .boundary   => prev.any isWord != next.any isWord
  | .noBoundary => prev.any isWord == next.any isWord
  | .start      => !prev.any isWord && next.any isWord
  | .finish     => prev.any isWord && !next.any isWord
  | .startHalf  => !prev.any isWord
  | .finishHalf => !next.any isWord

/-- Whether a condition holds at a place. -/
def Look.holds (p : Place) : Look → Bool
  | .textStart    => p.prev.isNone
  | .textEnd      => p.rest.isEmpty
  | .lineStart    => p.prev.all (· == '\n')
  | .lineEnd      => p.rest.head?.all (· == '\n')
  | .anyLineStart =>
    p.prev.all fun c => c == '\n' || (c == '\r' && p.rest.head? != some '\n')
  | .anyLineEnd   =>
    p.rest.head?.all fun c => c == '\r' || (c == '\n' && p.prev != some '\r')
  | .word e ascii =>
    e.holds (if ascii then CharSet.asciiWord else Unicode.isWordChar) p.prev p.rest.head?

/-! ## Section 3: Repetition -/

namespace Regex

/-- The places reached by repeating `step`, collected from a walk that goes first
    where the repetition prefers to go.

    The state of the walk holds the keys that were visited and the places that were
    found, the latest first. With `bounded`, the count says how often `step` may
    still be taken, and is part of the key; without, it only has to exceed the
    length of the text, since a step that takes no character is not repeated. -/
def repeatFrom (greedy bounded : Bool) (step : Place → List Place) :
    Nat → List (Nat × Nat) × List Place → Place → List (Nat × Nat) × List Place
  | 0, (seen, found), p =>
    if seen.contains (0, p.offset) then (seen, found)
    else ((0, p.offset) :: seen, p :: found)
  | n + 1, (seen, found), p =>
    let key := (if bounded then n + 1 else 0, p.offset)
    if seen.contains key then (seen, found)
    else
      let next := if bounded then step p else (step p).filter fun q => q.offset != p.offset
      if greedy then
        let (seen, found) := next.foldl (repeatFrom greedy bounded step n) (key :: seen, found)
        (seen, p :: found)
      else
        next.foldl (repeatFrom greedy bounded step n) (key :: seen, p :: found)

/-- The places reached by `step` taken exactly so many times. -/
def exactly (step : Place → List Place) : Nat → List Place → List Place
  | _, [] => []
  | 0, ps => ps
  | n + 1, ps => exactly step n (Place.distinct (ps.flatMap step))

/-- The places reached by taking `step` at most so many times. -/
def atMost (greedy : Bool) (step : Place → List Place) (n : Nat) (p : Place) : List Place :=
  Place.distinct (repeatFrom greedy true step n ([], []) p).2.reverse

/-- The places reached by taking `step` any number of times, if it always takes a
    character. -/
def anyTimes (greedy : Bool) (step : Place → List Place) (p : Place) : List Place :=
  Place.distinct (repeatFrom greedy false step p.rest.length ([], []) p).2.reverse

/-- The places reached by taking `step` at least once, from any of `ps`. A first step
    that takes no character is not followed by another one. -/
def atLeastOnce (greedy : Bool) (step : Place → List Place) (ps : List Place) : List Place :=
  let visit (walk : List (Nat × Nat) × List Place) (p : Place) :=
    (step p).foldl (fun (seen, found) q =>
      if q.offset != p.offset then
        repeatFrom greedy false step q.rest.length (seen, found) q
      else if seen.contains (0, q.offset) then (seen, found)
      else ((0, q.offset) :: seen, q :: found)) walk
  Place.distinct (ps.foldl visit ([], [])).2.reverse

/-- The expression can match the empty text. -/
def isNullable : Regex → Bool
  | .empty       => true
  | .set _       => false
  | .look _      => true
  | .group _ r   => r.isNullable
  | .seq r s     => r.isNullable && s.isNullable
  | .alt r s     => r.isNullable || s.isNullable
  | .rep _ n _ r => n == 0 || r.isNullable

/-- Puts one choice before another, in the order that greed asks for. -/
def prefer (greedy : Bool) (more less : List Place) : List Place :=
  if greedy then more ++ less else less ++ more

/-! ## Section 4: Matching -/

/-- The places at which a match that begins at `p` can end, best first. -/
def ends : Regex → Place → List Place
  | .empty, p => [p]
  | .set s, p =>
    match p.rest with
    | [] => []
    | c :: rest => if s c then [p.advance c rest] else []
  | .look l, p => if l.holds p then [p] else []
  | .group i r, p =>
    (r.ends p).map fun q =>
      { q with groups := (i, p.rest.take (q.offset - p.offset)) :: q.groups }
  | .seq r s, p => Place.distinct ((r.ends p).flatMap s.ends)
  | .alt r s, p => Place.distinct (r.ends p ++ s.ends p)
  | .rep greedy n (some m) r, p =>
    Place.distinct ((exactly r.ends n [p]).flatMap (atMost greedy r.ends (m - n)))
  | .rep greedy 0 none r, p =>
    if r.isNullable then
      Place.distinct (prefer greedy (atLeastOnce greedy r.ends [p]) [p])
    else anyTimes greedy r.ends p
  | .rep greedy (n + 1) none r, p =>
    atLeastOnce greedy r.ends (exactly r.ends n [p])

/-- The preferred match that begins at `p`: the place where it ends. -/
def matchAt? (r : Regex) (p : Place) : Option Place :=
  (r.ends p).head?

end Regex

end Marginalia
