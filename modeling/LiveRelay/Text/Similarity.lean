/-! # How similar two words are

The Jaro similarity of two words counts the characters that they share at places not too
far apart, and those of them that stand in another order. It is a fraction between zero
and one, kept as numerator and denominator.
-/

namespace LiveRelay.Text

/-- A number between zero and one. -/
structure Share where
  num : Nat
  den : Nat
  deriving DecidableEq

namespace Share

def exceeds (x y : Share) : Bool := y.num * x.den < x.num * y.den

end Share

/-- The first place from `first` to before `last` at which a character stands that is not
taken. -/
def findFree (word : Array Char) (taken : List Nat) (c : Char) (first last : Nat) : Option Nat :=
  (List.range' first (last - first)).find? fun place =>
    word[place]? == some c && !taken.contains place

/-- The places of the characters of one word, from place `index` on, paired with the
places of the same characters in the other, at most `range` places apart. -/
def pairPlaces (other : Array Char) (range : Nat) :
    (index : Nat) → (taken : List Nat) → List Char → List (Nat × Nat)
  | _, _, [] => []
  | index, taken, c :: rest =>
      match findFree other taken c (index - range) (min other.size (index + range + 1)) with
      | some place => (index, place) :: pairPlaces other range (index + 1) (place :: taken) rest
      | none => pairPlaces other range (index + 1) taken rest

/-- The Jaro similarity of two words. -/
def similarity (first second : String) : Share :=
  let a := first.toList
  let b := second.toList.toArray
  if a.isEmpty && b.isEmpty then ⟨1, 1⟩
  else
    let pairs := pairPlaces b (max a.length b.size / 2 - 1) 0 [] a
    let shared := pairs.length
    if shared = 0 then ⟨0, 1⟩
    else
      let ordered := (pairs.map (·.2)).mergeSort (· ≤ ·)
      let moved := (List.zip pairs ordered).countP fun ((_, place), sorted) =>
        b[place]? != b[sorted]?
      let inOrder := shared - moved / 2
      let n := a.length
      let m := b.size
      ⟨shared * shared * m + shared * shared * n + inOrder * n * m, 3 * n * m * shared⟩

/-- The candidate most similar to a word, the last of several; none that is not similar
enough. -/
def mostSimilar? (word : String) (enough : Share) (candidates : List String) : Option String :=
  let better (best : Option (String × Share)) (candidate : String) : Option (String × Share) :=
    let share := similarity word candidate
    if !share.exceeds enough then best
    else
      match best with
      | some (_, bestShare) => if bestShare.exceeds share then best else some (candidate, share)
      | none => some (candidate, share)
  (candidates.foldl better none).map (·.1)

end LiveRelay.Text
