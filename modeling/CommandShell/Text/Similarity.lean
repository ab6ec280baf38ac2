/-!
How similar two texts are, by the characters they share in about the same places.
-/

namespace CommandShell.Text

/-- The first place of a character, from a place on and before another, that is not taken yet. -/
def findFree (c : Char) (low high : Nat) (taken : List Nat) (text : List Char) : Option Nat :=
  (List.range text.length).find? fun index =>
    low ≤ index && index < high && !taken.contains index && text[index]? = some c

/-- The places of the second text that go with characters of the first, in the order of the
first. -/
def sharedPlaces (window : Nat) (second : List Char) (index : Nat) (taken : List Nat) :
    List Char → List (Char × Nat)
  | [] => []
  | c :: rest =>
    match findFree c (index - window) (index + window + 1) taken second with
    | some place => (c, place) :: sharedPlaces window second (index + 1) (place :: taken) rest
    | none => sharedPlaces window second (index + 1) taken rest

/-- The similarity of two texts as a quotient: the mean of the shares of the two texts that have a
counterpart and the share of those that are in the same order. -/
def similarity (first second : List Char) : Nat × Nat :=
  let a := first.length
  let b := second.length
  let window := max a b / 2 - 1
  let shared := sharedPlaces window second 0 [] first
  let matched := shared.length
  if matched = 0 then (0, 1)
  else
    let places := (shared.map Prod.snd).mergeSort fun i j => i ≤ j
    let ordered := places.filterMap fun place => second[place]?
    let displaced := ((shared.map Prod.fst).zip ordered).countP fun pair => pair.1 ≠ pair.2
    let kept := matched - displaced / 2
    (matched * matched * b + matched * matched * a + kept * a * b, 3 * a * b * matched)

/-- Whether a similarity is more than seven tenths. -/
def isSimilar (score : Nat × Nat) : Bool := 7 * score.2 < 10 * score.1

end CommandShell.Text
