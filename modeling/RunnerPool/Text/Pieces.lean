/-! # Pieces between separators

* `pieces sep l`   what stands between the separators of a list, of which there is always at
  least one piece -/

namespace RunnerPool.Text

/-- The pieces of a list between its separators. -/
def pieces [DecidableEq α] (sep : α) : List α → List (List α)
  | [] => [[]]
  | a :: as =>
    if a = sep then [] :: pieces sep as
    else
      match pieces sep as with
      | [] => [[a]]
      | p :: ps => (a :: p) :: ps

end RunnerPool.Text
