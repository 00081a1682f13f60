/-!
# Cutting texts at a separator

A text cut at a separator has one part more than it has separators, so the empty text has one empty
part. Joining the parts with the separator gives the text back.
-/

namespace SparkTuner.Text

/-- The parts of a text between the occurrences of `sep`. -/
def parts (sep : Char) : List Char → List (List Char)
  | [] => [[]]
  | c :: cs =>
    match parts sep cs with
    | [] => [[c]]
    | p :: ps => if c = sep then [] :: p :: ps else (c :: p) :: ps

/-- `parts` on strings. -/
def cut (sep : Char) (s : String) : List String :=
  (parts sep s.toList).map String.ofList

/-- The texts one after the other with `sep` between neighbours. -/
def join (sep : List Char) : List (List Char) → List Char
  | [] => []
  | [p] => p
  | p :: q :: ps => p ++ sep ++ join sep (q :: ps)

/-- Whether `needle` occurs in the text. -/
def occursIn (needle : List Char) : List Char → Bool
  | [] => needle.isEmpty
  | c :: cs => needle.isPrefixOf (c :: cs) || occursIn needle cs

/-- What follows `head` in a text that starts with it. -/
def after? (head : List Char) (cs : List Char) : Option (List Char) :=
  match head, cs with
  | [], cs => some cs
  | _ :: _, [] => none
  | h :: hs, c :: cs => if h = c then after? hs cs else none

theorem parts_ne_nil (sep : Char) (cs : List Char) : parts sep cs ≠ [] := by
  cases cs with
  | nil => simp [parts]
  | cons c cs => simp only [parts]; split <;> try split
                 all_goals simp

theorem join_parts (sep : Char) (cs : List Char) : join [sep] (parts sep cs) = cs := by
  induction cs with
  | nil => rfl
  | cons c cs ih =>
    simp only [parts]
    split
    next h => exact absurd h (parts_ne_nil sep cs)
    next p ps h =>
      rw [h] at ih
      split
      next hc => simp [join, hc, ih]
      next => cases ps <;> simp_all [join]

theorem after?_eq_some_iff {head cs rest : List Char} :
    after? head cs = some rest ↔ cs = head ++ rest := by
  induction head generalizing cs with
  | nil => simp [after?, eq_comm]
  | cons h hs ih =>
    cases cs with
    | nil => simp [after?]
    | cons c cs =>
      simp only [after?]
      split <;> simp_all [eq_comm]

end SparkTuner.Text
