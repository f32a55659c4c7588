import Mathlib.Data.List.Basic
import Mathlib.Data.List.Perm.Basic

/-! Grouping a list by a key into a map that is kept in the order of its keys. -/

universe u v

namespace ReflCpp.Grouping

variable {K : Type u} {X : Type v} [DecidableEq K] [LT K] [DecidableLT K]

/-- `groups[k].push_back(x)` -/
def pushBack (k : K) (x : X) : List (K × List X) → List (K × List X)
  | [] => [(k, [x])]
  | (l, xs) :: groups =>
    if k = l then (l, xs ++ [x]) :: groups
    else if k < l then (k, [x]) :: (l, xs) :: groups
    else (l, xs) :: pushBack k x groups

def members (groups : List (K × List X)) : List X := groups.flatMap Prod.snd

def groupBy (key : X → K) (xs : List X) (groups : List (K × List X)) : List (K × List X) :=
  xs.foldl (fun groups x => pushBack (key x) x groups) groups

theorem members_pushBack (k : K) (x : X) (groups : List (K × List X)) :
    (members (pushBack k x groups)).Perm (x :: members groups) := by
  induction groups with
  | nil => exact .refl _
  | cons g groups ih =>
    obtain ⟨l, xs⟩ := g
    rw [pushBack]
    split
    · simp only [members, List.flatMap_cons, List.append_assoc, List.singleton_append]
      exact List.perm_middle
    · split
      · exact .refl _
      · have htail : (xs ++ members (pushBack k x groups)).Perm (xs ++ x :: members groups) :=
          ih.append_left xs
        exact htail.trans List.perm_middle

theorem members_groupBy (key : X → K) (xs : List X) (groups : List (K × List X)) :
    (members (groupBy key xs groups)).Perm (members groups ++ xs) := by
  induction xs generalizing groups with
  | nil => rw [List.append_nil, groupBy, List.foldl_nil]
  | cons x xs ih =>
    have hpush : (members (pushBack (key x) x groups) ++ xs).Perm (x :: members groups ++ xs) :=
      (members_pushBack (key x) x groups).append_right xs
    apply (ih (pushBack (key x) x groups)).trans
    exact hpush.trans List.perm_middle.symm

end ReflCpp.Grouping
