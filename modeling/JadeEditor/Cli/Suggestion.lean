import JadeEditor.Text.Basic

/-!
# Suggestions

For a word that is not known, the known words nearest to it: by the number of
insertions, deletions, replacements and swaps of neighbours, at most three of
them and fewer than three fifths of the longer word.
-/

namespace JadeEditor.Cli

set_option autoImplicit false

namespace Distance

/-- The distance of the first `i + 1` units of `a` and the first `j + 1` of `b`, from
the rows for fewer units of `b` and the row under way. -/
def cell (a b : Text) (rows : List (List Nat)) (row : List Nat) (i j : Nat) : Nat :=
  let above := rows.getD j []
  let cost := if a[i]? = b[j]? then 0 else 1
  let plain := min (min (above.getD (i + 1) 0 + 1) (row.getD i 0 + 1)) (above.getD i 0 + cost)
  if 0 < i ∧ 0 < j ∧ a[i]? = b[j - 1]? ∧ a[i - 1]? = b[j]? then
    min plain ((rows.getD (j - 1) []).getD (i - 1) 0 + 1)
  else plain

/-- Adds the row for one more unit of `b`. -/
def addRow (a b : Text) (rows : List (List Nat)) (j : Nat) : List (List Nat) :=
  rows ++ [(List.range a.length).foldl (fun row i => row ++ [cell a b rows row i j]) [j + 1]]

end Distance

/-- The most edits a suggestion may be away. -/
def maxDistance : Nat := 3

/-- The number of edits between two words. Words whose lengths differ by more than
the limit count as wholly different. -/
def distance (a b : Text) : Nat :=
  if maxDistance < max a.length b.length - min a.length b.length then max a.length b.length
  else
    let rows := (List.range b.length).foldl (Distance.addRow a b) [List.range (a.length + 1)]
    (rows.getD b.length []).getD a.length 0

/-- Keeps the candidates that are as near as any so far. -/
def considerCandidate (word : Text) (best : Nat × List Text) (candidate : Text) : Nat × List Text :=
  let d := distance word candidate
  let length := max word.length candidate.length
  if candidate.length ≤ 1 ∨ 5 * (length - d) ≤ 2 * length ∨ best.1 < d then best
  else if d < best.1 then (d, [candidate])
  else (best.1, best.2 ++ [candidate])

def insertWord (w : Text) : List Text → List Text
  | [] => [w]
  | v :: vs => if w < v then w :: v :: vs else v :: insertWord w vs

/-- The nearest candidates in alphabetical order. -/
def nearest (word : Text) (candidates : List Text) : List Text :=
  let best := (candidates.eraseDups.foldl (considerCandidate word) (maxDistance, [])).2
  best.foldl (fun sorted w => insertWord w sorted) []

/-- A line that offers the nearest candidates; empty if there is none. For a word
that starts with two hyphens these are left out of the comparison. -/
def suggestion (word : Text) (candidates : List Text) : Text :=
  let hyphens := utf16 "--"
  let similar :=
    match Text.after? hyphens word with
    | some bare => (nearest bare (candidates.eraseDups.map (·.drop 2))).map (hyphens ++ ·)
    | none => nearest word candidates
  match similar with
  | [] => []
  | [one] => utf16 "\n(Did you mean " ++ one ++ utf16 "?)"
  | several => utf16 "\n(Did you mean one of " ++ Text.join (utf16 ", ") several ++ utf16 "?)"

end JadeEditor.Cli
