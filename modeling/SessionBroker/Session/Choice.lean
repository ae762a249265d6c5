/-!
# Choosing a name

A name is drawn at random from a list of candidates. The draw is an argument, so the
names that can be chosen are those of all draws.
-/

namespace SessionBroker.Choice

/-- The candidate that the draw falls on, if there are candidates. -/
def choose? (draw : Nat) (candidates : List String) : Option String :=
  candidates[draw % candidates.length]?

/-- Puts a name in its place by code points; a name that is there already is not added. -/
def insertName (name : String) : List String → List String
  | [] => [name]
  | n :: ns =>
    if name < n then name :: n :: ns
    else if name = n then n :: ns
    else n :: insertName name ns

/-- What can be chosen, each result once and in order; `none` alone if there are no candidates. -/
def outcomes (candidates : List String) : List (Option String) :=
  if candidates.isEmpty then [none]
  else (candidates.foldr insertName []).map some

end SessionBroker.Choice
