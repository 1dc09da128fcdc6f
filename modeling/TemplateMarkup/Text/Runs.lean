/-!
Contract: a list of labelled items, shortened to the places where the label changes.

Owns: `runStarts`.

Does not own: what the labels mean.
-/

set_option autoImplicit false

namespace TemplateMarkup.Text

universe u v

variable {Item : Type u} {Label : Type v} [DecidableEq Label]

/-- Keep a labelled item only if the runs found so far, newest first, do not end with
its label. -/
def extendRuns (label : Item → Label) (found : List (Item × Label)) (item : Item) :
    List (Item × Label) :=
  match found with
  | [] => [(item, label item)]
  | (start, current) :: earlier =>
      if label item = current then
        (start, current) :: earlier
      else
        (item, label item) :: (start, current) :: earlier

/-- The first item of each maximal run of equally labelled neighbours, with the label
of the run. -/
def runStarts (label : Item → Label) (items : List Item) : List (Item × Label) :=
  (items.foldl (extendRuns label) []).reverse

end TemplateMarkup.Text
