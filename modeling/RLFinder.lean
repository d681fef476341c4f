import RLFinder.Theory.Machine
import RLFinder.Theory.KeyTree
import RLFinder.Theory.Edit
import RLFinder.App
import RLFinder.Verify.PartnerPostsLemmas
import RLFinder.Verify.TableAgreement
import RLFinder.Theory.Trace
import RLFinder.Verify.BoardReads
import RLFinder.Verify.Editor
import RLFinder.Verify.Relaunch
import RLFinder.Verify.Loads
import RLFinder.Verify.SignIn
import RLFinder.Verify.AppLemmas
import RLFinder.Verify.Posting
import RLFinder.Verify.BoardTree
import RLFinder.Verify.Schema
import RLFinder.Verify.PostBoard
import RLFinder.TextViewReports
import RLFinder.Theory.Simulation
import RLFinder.Verify.BufferRefinement
import RLFinder.Verify.SnapshotDecoder
import RLFinder.Verify.Caret
import RLFinder.Verify.UserRecord
import RLFinder.Foundation
import RLFinder.HexConverter
import RLFinder.Verify.HexGrammar
import RLFinder.Theory.Bulletin
import RLFinder.Verify.BulletinRefinement
import RLFinder.Verify.Progress
import RLFinder.Verify.Shown
import RLFinder.Verify.Storage
import RLFinder.Theory.Grid
import RLFinder.SegmentedControl
import RLFinder.NewPostView
import RLFinder.Verify.SegmentedControlLemmas
import RLFinder.Verify.SegmentedRuns
import RLFinder.Verify.NewPostViewRefinement
import RLFinder.Gradient
import RLFinder.Verify.GradientStops
import RLFinder.BoardView
import RLFinder.Verify.BoardViewLemmas
import RLFinder.Settings
import RLFinder.Verify.SettingsLemmas
import RLFinder.Verify.Profiles
import RLFinder.AppView
import RLFinder.Verify.AppViewRefinement
import RLFinder.Verify.Selecting
import RLFinder.Verify.Delivering
