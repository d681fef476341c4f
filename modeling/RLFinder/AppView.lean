import RLFinder.App
import RLFinder.BoardView
import RLFinder.NewPostView

/-!
# The app with its controls

`App` chooses an option or a segment in one event. `AppView` is the app as it is touched: its board
has drop-downs and a floating button, its post screen has segmented controls. `WorldView` is any
number of them sharing one database.
-/

namespace RLFinder

/-- What a device fixes about the screens. -/
structure Device where
  board : BoardLayout
  rankChooser : Layout 7
  gameTypeChooser : Layout 4

inductive ScreenView
  | newPost (screen : NewPostView)
  | settings
  /-- A `PostDetailsViewController`. It is not told which post it shows. -/
  | postDetails

structure AppView where
  session : Session
  board : BoardView
  /-- The screens above the board, the top one first. -/
  stack : List ScreenView := []
  presented : Option Presented := none

inductive AppViewEvent
  | launch
  | board (e : BoardViewEvent)
  | newPost (e : NewPostViewEvent)
  /-- A tap on the floating post button. -/
  | toCreatePost
  | toSettings
  /-- A tap on a row of the posts. -/
  | toPostDetails (s : Fin 7) (row : Nat)
  | didSignIn (user : Option FirebaseUser) (error : Option String)
  | logOut (signOut : Except String Unit)
  | back
  | dismiss
  /-- A tap on the Post button, with the key that `childByAutoId` generates. -/
  | buttonPushed (key : String)

/-- The events that come only while the board is on top: `viewDidAppear` and the touches. -/
def BoardViewEvent.onTop : BoardViewEvent → Bool
  | posts (.headerTap _) => true
  | posts e => e.issuesRead
  | touchesBegan _ | didSelectRow .. | scrollViewWillBeginDragging => true
  | scrollViewDidScroll _ => false

/-- The events that do not come while something is presented over the screens. -/
def AppViewEvent.isTouch : AppViewEvent → Bool
  | launch | didSignIn .. | dismiss => false
  | board e => e.onTop
  | newPost _ | toCreatePost | toSettings | toPostDetails .. | logOut _ | back
    | buttonPushed _ => true

namespace AppView

variable (d : Device) (a : AppView)

def launched (defaults : Option Coder) : AppView where
  session := .relaunch { currentUser := none, defaults }
  board := .viewDidLoad d.board

def present (p : Presented) : AppView := { a with presented := some p }

def push (vc : ScreenView) : AppView := { a with stack := vc :: a.stack }

/-- `toCreatePost()`, with the choosers of the pushed screen loaded. -/
def toCreatePost : Except ControlFault AppView := do
  let a := if a.session.currentUser = none then
      a.present (.alert "Please Log In" "You need to log in in order to post")
    else a
  let vc ← NewPostView.loaded d.rankChooser d.gameTypeChooser
    a.board.posts.controller.currentSelectedSystem ⟨0, 0⟩
  return a.push (.newPost vc)

/-- `toSettings()` -/
def toSettings : AppView :=
  if a.session.currentUser = none then a.present .authViewController else a.push .settings

/-- `toPostDetails(post:)`, called by `tableView(_:didSelectRowAt:)`. -/
def toPostDetails : AppView := a.push .postDetails

/-- The writes of `postPost` on the top screen. -/
def postWrites (key : String) : Except ControlFault (List Write) :=
  match a.stack with
  | .newPost s :: _ => do
    let write ← s.postPost key
    return write.toList
  | _ => .ok []

/-- An event: the next state and the writes it sends to the database. -/
def handle : AppViewEvent → Except (Fault ⊕ ControlFault) (AppView × List Write)
  | .launch => .ok (launched d a.session.defaults, [])
  | .board e => do
    let board ← (a.board.handle d.board e).mapError .inl
    return ({ a with board }, [])
  | .newPost e =>
    match a.stack with
    | .newPost s :: below => do
      let s ← s.handle d.rankChooser d.gameTypeChooser e
      return ({ a with stack := .newPost s :: below }, [])
    | _ => .ok (a, [])
  | .toCreatePost => do
    let a ← (a.toCreatePost d).mapError .inr
    return (a, [])
  | .toSettings => .ok (a.toSettings, [])
  | .toPostDetails .. => .ok (a.toPostDetails, [])
  | .didSignIn user error => do
    let (session, writes) ← (a.session.didSignIn user error).mapError .inl
    return ({ a with session }, writes)
  | .logOut signOut =>
    let (session, pop) := a.session.logOut signOut
    .ok ({ a with session, stack := if pop then a.stack.tail else a.stack }, [])
  | .back => .ok ({ a with stack := a.stack.tail }, [])
  | .dismiss => .ok ({ a with presented := none }, [])
  | .buttonPushed key => do
    let writes ← (a.postWrites key).mapError .inr
    return (a, writes)

/-- Each screen's controls are there only while it is on top, the floating button only where the
board shows it, and a row only where the table has one. -/
def Offers : AppViewEvent → Prop
  | .board e => a.board.Enabled e ∧ (e.onTop → a.stack = [])
  | .newPost e => ∃ s below, a.stack = .newPost s :: below ∧
    s.Enabled d.rankChooser d.gameTypeChooser e
  | .toCreatePost => a.stack = [] ∧ a.board.floatingButton.originY < d.board.height
  | .toSettings => a.stack = []
  | .toPostDetails s row => a.stack = [] ∧ row < a.board.posts.controller.postsTable.rowCounts s
  | .logOut _ => ∃ below, a.stack = .settings :: below
  | .back => a.stack ≠ []
  | .buttonPushed _ => ∃ s below, a.stack = .newPost s :: below
  | .dismiss => a.presented ≠ none
  | .launch | .didSignIn .. => True

/-- What is presented takes the touches. -/
def Enabled (e : AppViewEvent) : Prop := a.Offers d e ∧ (e.isTouch = true → a.presented = none)

end AppView

/-! ## Clients sharing a database -/

structure WorldView (ι : Type) where
  clients : ι → AppView
  database : Database

namespace WorldView

variable {ι : Type} [DecidableEq ι] (d : Device)

def handle (w : WorldView ι) (e : ι × AppViewEvent) :
    Except (Fault ⊕ ControlFault) (WorldView ι) := do
  let (a, writes) ← (w.clients e.1).handle d e.2
  return { clients := Function.update w.clients e.1 a, database := w.database.apply writes }

/-- A value callback carries the value at the observed place; `childByAutoId` generates a key that
is new at the place it is called on. -/
def Enabled (w : WorldView ι) (e : ι × AppViewEvent) : Prop :=
  (w.clients e.1).Enabled d e.2 ∧
  match e.2 with
  | .board (.posts (.readCallback ticket (.value _ value))) =>
    ∀ path ∈ (w.clients e.1).board.posts.issued[ticket]?,
      value = snapshotValue (w.database.get path)
  | .buttonPushed key =>
    ∀ writes, (w.clients e.1).postWrites key = .ok writes →
      ∀ write ∈ writes, IsAutoId w.database write.path.dropLast key
  | _ => True

/-- Freshly launched apps and an empty database. -/
def start (defaults : ι → Option Coder) : WorldView ι where
  clients i := .launched d (defaults i)
  database := .empty

end WorldView

def worldViewMachine (d : Device) (ι : Type) [DecidableEq ι] :
    Machine (WorldView ι) (ι × AppViewEvent) (Fault ⊕ ControlFault) where
  enabled := WorldView.Enabled d
  step := WorldView.handle d

end RLFinder
