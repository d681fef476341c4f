import RLFinder.Firebase
import RLFinder.UITableView
import RLFinder.Theory.Machine

/-!
# The posts board

`PartnerPostsController`: the seven lists of posts with their collapsed flags, the table that shows
them, and `readDatabase`, which clears the lists when it is called and fills them when its callback
fires. `PostsScreen` adds the reads in flight, and `postsMachine` lets the environment interleave
calls, callbacks, taps and scrolling in any order.
-/

namespace RLFinder

structure PartnerPostsController where
  currentSelectedSystem : String := "PS4"
  currentSelectedGameType : String := "Duel"
  bronzePosts : List String := []
  silverPosts : List String := []
  goldPosts : List String := []
  platinumPosts : List String := []
  diamondPosts : List String := []
  championPosts : List String := []
  grandChampionPosts : List String := []
  /-- Section collapsed or not. -/
  isHidden : Fin 7 → Bool := fun _ => true
  postsTable : UITableView
  /-- What `readDatabase` has printed. -/
  console : List String := []

inductive DropDown
  | systemDropDown
  | gameTypeDropDown
  deriving DecidableEq

def DropDown.dropDownOptions : DropDown → List String
  | systemDropDown => ["PS4", "PC", "Xbox One"]
  | gameTypeDropDown => ["Duel", "Doubles", "Standard", "Solo Standard"]

/-- What a read delivers: the snapshot's value, with the order in which its dictionaries are
visited, or an error. -/
inductive ReadResult
  | value (order : IterationOrder Any (List (String × String))) (value : Any)
  | error (localizedDescription : String)

namespace PartnerPostsController

/-! ## Table view data source -/

/-- The `switch` of `cellForRowAt` and of `expandPosts`. -/
def selectedPostArray (c : PartnerPostsController) : Nat → List String
  | 0 => c.bronzePosts
  | 1 => c.silverPosts
  | 2 => c.goldPosts
  | 3 => c.platinumPosts
  | 4 => c.diamondPosts
  | 5 => c.championPosts
  | 6 => c.grandChampionPosts
  | _ => []

/-- `tableView(_:numberOfRowsInSection:)` -/
def numberOfRowsInSection (c : PartnerPostsController) : Nat → Nat
  | 0 => if c.isHidden 0 then 0 else c.bronzePosts.length
  | 1 => if c.isHidden 1 then 0 else c.silverPosts.length
  | 2 => if c.isHidden 2 then 0 else c.goldPosts.length
  | 3 => if c.isHidden 3 then 0 else c.platinumPosts.length
  | 4 => if c.isHidden 4 then 0 else c.diamondPosts.length
  | 5 => if c.isHidden 5 then 0 else c.championPosts.length
  | 6 => if c.isHidden 6 then 0 else c.grandChampionPosts.length
  | _ => 0

/-- `tableView(_:viewForHeaderInSection:)` -/
def viewForHeaderInSection : Nat → PartnerPostHeader
  | 0 => { tierName := "BRONZE TIER", tierIcon := "bronze3" }
  | 1 => { tierName := "SILVER TIER", tierIcon := "silver3" }
  | 2 => { tierName := "GOLD TIER", tierIcon := "gold3" }
  | 3 => { tierName := "PLATINUM TIER", tierIcon := "platinum3" }
  | 4 => { tierName := "DIAMOND TIER", tierIcon := "diamond3" }
  | 5 => { tierName := "CHAMPION TIER", tierIcon := "champion3" }
  | 6 => { tierName := "GRAND CHAMP", tierIcon := "grand champion" }
  | _ => { tierName := "Uh Oh", tierIcon := "" }

/-- `tableView(_:cellForRowAt:)`: the text of the cell. -/
def cellForRowAt (c : PartnerPostsController) (indexPath : IndexPath) : Except Fault String :=
  match (c.selectedPostArray indexPath.section_)[indexPath.row]? with
  | some text => .ok text
  | none => .error .indexOutOfRange

def rows (c : PartnerPostsController) (s : Fin 7) : Nat := c.numberOfRowsInSection s

/-! ## Expanding and collapsing a section -/

def toggle (c : PartnerPostsController) (s : Fin 7) : PartnerPostsController :=
  { c with isHidden := Function.update c.isHidden s (!c.isHidden s) }

/-- The update `expandPosts` issues once the flag of the section is flipped, if any. -/
def expandUpdate (c : PartnerPostsController) (s : Fin 7) : Option TableUpdate :=
  let selectedPostArray := c.selectedPostArray s
  if selectedPostArray.length = 0 then none
  else
    let indexPaths := (List.range selectedPostArray.length).map fun i => { row := i, section_ := s }
    if !c.isHidden s then some (.insertRows indexPaths) else some (.deleteRows indexPaths)

def perform (c : PartnerPostsController) (u : TableUpdate) :
    Except Fault PartnerPostsController := do
  return { c with postsTable := ← c.postsTable.perform u c.rows }

/-- `gestureRecognizer.cell.caret.image = …`; the tapped header is the displayed one. -/
def setCaret (c : PartnerPostsController) (s : Fin 7) (caret : Caret) : PartnerPostsController :=
  { c with postsTable := c.postsTable.setHeader s { c.postsTable.headers s with caret := caret } }

def expandPosts (c : PartnerPostsController) (s : Fin 7) : Except Fault PartnerPostsController :=
  let c := c.toggle s
  match c.expandUpdate s with
  | none => .ok c
  | some (.insertRows indexPaths) => do
    let c ← c.perform (.insertRows indexPaths)
    return c.setCaret s .angleUp
  | some (.deleteRows indexPaths) => do
    let c ← c.perform (.deleteRows indexPaths)
    return c.setCaret s .angleDown

/-! ## Reading the database -/

def clearPosts (c : PartnerPostsController) : PartnerPostsController :=
  { c with
    bronzePosts := [], silverPosts := [], goldPosts := [], platinumPosts := []
    diamondPosts := [], championPosts := [], grandChampionPosts := [] }

def readSystem (c : PartnerPostsController) : String :=
  match c.currentSelectedSystem with
  | "PS4" => "ps4"
  | "PC" => "pc"
  | "Xbox One" => "xboxOne"
  | _ => ""

def readGameType (c : PartnerPostsController) : String :=
  if c.currentSelectedGameType = "Solo Standard" then "soloStandard"
  else lowercased c.currentSelectedGameType

/-- `ref.child(system).child(gameType)` -/
def readPath (c : PartnerPostsController) : Path := child (child [] c.readSystem) c.readGameType

/-- `readDatabase()` up to the asynchronous read: the cleared controller and the place observed. -/
def readDatabase (c : PartnerPostsController) : PartnerPostsController × Path :=
  (c.clearPosts, c.readPath)

/-- The `switch` over the rank of a post. -/
def recordPost (c : PartnerPostsController) (postRank body : String) : PartnerPostsController :=
  match postRank with
  | "bronzePosts" => { c with bronzePosts := c.bronzePosts ++ [body] }
  | "silverPosts" => { c with silverPosts := c.silverPosts ++ [body] }
  | "goldPosts" => { c with goldPosts := c.goldPosts ++ [body] }
  | "platinumPosts" => { c with platinumPosts := c.platinumPosts ++ [body] }
  | "diamondPosts" => { c with diamondPosts := c.diamondPosts ++ [body] }
  | "championPosts" => { c with championPosts := c.championPosts ++ [body] }
  | "grandChampionPosts" => { c with grandChampionPosts := c.grandChampionPosts ++ [body] }
  | _ => { c with console := c.console ++ ["Post type was not recorded correctly in Firebase"] }

/-- `post["postBody"] ?? postId` -/
def postText (post : String × List (String × String)) : String :=
  (post.2.lookup "postBody").getD post.1

/-- The inner loop: the posts stored under one rank. -/
def recordRank (order : IterationOrder Any (List (String × String))) (c : PartnerPostsController)
    (entry : String × Any) : Except Fault PartnerPostsController :=
  match entry.2.asPosts? with
  | none => .error .forcedCast
  | some posts => .ok <|
    (order.inner entry.1 posts).foldl (fun c post => c.recordPost entry.1 (postText post)) c

def reloadSections (c : PartnerPostsController) : PartnerPostsController :=
  { c with postsTable := c.postsTable.reloadSections c.rows fun s => viewForHeaderInSection s }

/-- The callback of `readDatabase`. An absent value, or one that is not a dictionary, returns before
the table is reloaded. -/
def readCallback (c : PartnerPostsController) : ReadResult → Except Fault PartnerPostsController
  | .error localizedDescription => .ok { c with console := c.console ++ [localizedDescription] }
  | .value order value =>
    match value.asDictionary? with
    | none => .ok c
    | some entries => do
      let c ← (order.outer entries).foldlM (recordRank order) c
      return c.reloadSections

/-- `reloadTable(string:dropDownButton:)` up to the asynchronous read. -/
def reloadTable (c : PartnerPostsController) (string : String) :
    DropDown → PartnerPostsController × Path
  | .systemDropDown => { c with currentSelectedSystem := string }.readDatabase
  | .gameTypeDropDown => { c with currentSelectedGameType := string }.readDatabase

/-- The controller once its table has been loaded for the first time. -/
def loaded : PartnerPostsController where
  postsTable := { rowCounts := fun _ => 0, headers := fun s => viewForHeaderInSection s }

end PartnerPostsController

/-! ## The screen and its environment -/

/-- The controller with the reads it has issued, oldest first; a read is known by its position. -/
structure PostsScreen where
  controller : PartnerPostsController
  issued : List Path := []
  /-- The reads whose callback is still to come. -/
  outstanding : List Nat := []

inductive PostsEvent
  | viewDidAppear
  | dropDownClicked (button : DropDown) (string : String)
  | readCallback (ticket : Nat) (result : ReadResult)
  | headerTap (s : Fin 7)
  /-- The table asks for a cell. -/
  | cellForRow (s : Fin 7) (row : Nat)
  /-- A header scrolls back into view and is created anew. -/
  | headerReappears (s : Fin 7)

/-- The events that call `readDatabase`. -/
def PostsEvent.issuesRead : PostsEvent → Bool
  | viewDidAppear | dropDownClicked .. => true
  | _ => false

namespace PostsScreen

/-- The controller has called `readDatabase`; the read is now in flight. -/
def issue (s : PostsScreen) (r : PartnerPostsController × Path) : PostsScreen where
  controller := r.1
  issued := s.issued ++ [r.2]
  outstanding := s.outstanding ++ [s.issued.length]

def handle (s : PostsScreen) : PostsEvent → Except Fault PostsScreen
  | .viewDidAppear => .ok (s.issue s.controller.readDatabase)
  | .dropDownClicked button string => .ok (s.issue (s.controller.reloadTable string button))
  | .readCallback ticket result => do
    let c ← s.controller.readCallback result
    return { s with controller := c, outstanding := s.outstanding.erase ticket }
  | .headerTap i => do
    let c ← s.controller.expandPosts i
    return { s with controller := c }
  | .cellForRow i row => do
    let _ ← s.controller.cellForRowAt { row := row, section_ := i }
    return s
  | .headerReappears i =>
    let c := s.controller
    .ok { s with controller := { c with
      postsTable := c.postsTable.setHeader i (PartnerPostsController.viewForHeaderInSection i) } }

/-- The table asks only for rows below the remembered count; an outstanding read calls back once;
a drop-down offers its options. -/
def Enabled (s : PostsScreen) : PostsEvent → Prop
  | .dropDownClicked button string => string ∈ button.dropDownOptions
  | .readCallback ticket _ => ticket ∈ s.outstanding
  | .cellForRow i row => row < s.controller.postsTable.rowCounts i
  | _ => True

instance {s : PostsScreen} {e : PostsEvent} : Decidable (s.Enabled e) := by
  cases e <;> unfold Enabled <;> infer_instance

/-- The board as it first comes on screen, with no read issued yet. -/
def start : PostsScreen := { controller := .loaded }

end PostsScreen

def postsMachine : Machine PostsScreen PostsEvent Fault where
  enabled := PostsScreen.Enabled
  step := PostsScreen.handle

instance (s : PostsScreen) (e : PostsEvent) : Decidable (postsMachine.enabled s e) :=
  inferInstanceAs (Decidable (s.Enabled e))

end RLFinder
