import RLFinder.App

/-!
# The settings table

`SettingsController` as the data source of its table: the name and the e-mail of `User.currentUser`,
and the row with the button that logs out.
-/

namespace RLFinder

inductive SettingsCell
  | username (detailText : String)
  | email (detailText : String)
  /-- An `OnboardTableViewCell`, whose delegate is the controller. -/
  | onboard
  | empty
  deriving DecidableEq

namespace SettingsController

/-- `tableView(_:cellForRowAt:)`; the storyboard has a prototype for each of the three rows. -/
def cellForRowAt (s : Session) : Nat → SettingsCell
  | 0 => .username ((s.currentUser.bind User.username).getD "")
  | 1 => .email ((s.currentUser.bind User.email).getD "")
  | 2 => .onboard
  | _ => .empty

end SettingsController
end RLFinder
