import Marketplace.Lib.Transition

/-!
# Two systems in lockstep

Two systems that take the same actions. A relation that every step of the one matches by the same
step of the other, and by none where the other has none, is kept over whole runs: whoever sees only
what the relation fixes cannot tell the runs apart.
-/

namespace Lockstep

open Transition

variable {Left Right Action : Type} {stepLeft : Left → Action → Option Left}
  {stepRight : Right → Action → Option Right} {like : Left → Right → Prop} {ok : Action → Prop}

/-- The same steps are enabled, and they lead to like states. -/
def Matches (stepLeft : Left → Action → Option Left) (stepRight : Right → Action → Option Right)
    (like : Left → Right → Prop) (ok : Action → Prop) : Prop :=
  ∀ left right action, like left right → ok action →
    Option.Rel like (stepLeft left action) (stepRight right action)

theorem Matches.run (hmatches : Matches stepLeft stepRight like ok) {left : Left} {right : Right}
    (hlike : like left right) {actions : List Action} (hok : ∀ action ∈ actions, ok action) :
    Option.Rel like (run stepLeft left actions) (run stepRight right actions) := by
  induction actions generalizing left right with
  | nil => exact .some hlike
  | cons action rest ih =>
      have hstep := hmatches left right action hlike (hok action List.mem_cons_self)
      rw [run_cons, run_cons]
      cases hleft : stepLeft left action with
      | none =>
          cases hright : stepRight right action with
          | none => exact .none
          | some after' =>
              rw [hleft, hright] at hstep
              cases hstep
      | some after =>
          cases hright : stepRight right action with
          | none =>
              rw [hleft, hright] at hstep
              cases hstep
          | some after' =>
              rw [hleft, hright] at hstep
              cases hstep with
              | some hafter =>
                  exact ih hafter fun other hother => hok other (List.mem_cons_of_mem _ hother)

theorem rel_isSome {first : Option Left} {second : Option Right}
    (hrel : Option.Rel like first second) :
    first.isSome = second.isSome := by
  cases hrel <;> rfl

theorem rel_of_eq_some {first : Option Left} {second : Option Right} {left : Left} {right : Right}
    (hrel : Option.Rel like first second) (hleft : first = some left)
    (hright : second = some right) :
    like left right := by
  rw [hleft, hright] at hrel
  cases hrel with
  | some hlike => exact hlike

end Lockstep
