import Fxcode.GameView.Input
import Fxcode.GameView.Mirror
import Fxcode.GameView.Capture
import Fxcode.GameView.Element
import Fxcode.Credentials.Provider
import Fxcode.Credentials.Refinement
import Fxcode.Credentials.Storage
import Fxcode.Settings.SearchResult
import Fxcode.Settings.Tree
import Fxcode.Settings.Visibility
import Fxcode.Settings.Ids
import Fxcode.Settings.Display
import Fxcode.Server.Path
import Fxcode.Server.Decode
import Fxcode.Server.Handler
import Fxcode.Server.Containment
import Fxcode.Server.Upgrade
import Fxcode.Server.Channel
